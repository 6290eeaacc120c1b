import Ninebot.Connect
import Ninebot.FakeScooter
import Ninebot.Verification

/-! # The links that `connect` opens

    `connect` opens at most two links.  Each awaited call on them can fail, and
    each failure has its own handler: one forgets the link, one closes it, and
    some leave it alone.

    This file defines:
    - `AllOrNothing`: `connect` leaves one link open if it returns, and none
      open or dropped if it raises
    - `EndsInOrder`: the outcomes of the awaited calls for which it does
    - `Watches`: what becomes of the links while the client waits
    - `Last`: the link that was opened last, and the ones before it
    - `Verifies`: the handshakes that are complete, and the links that the
      serial number was read over -/

namespace Ninebot

open Coro

variable {κ : Type}

/-! ## What is promised -/

def Step.isDetach : Step → Bool
  | .event .detach => true
  | _ => false

/-- No other task enters `disconnect()` in the rest of the script. -/
def World.alone (w : World κ) : Bool := w.script.all (!·.isDetach)

/-- Only links that `establish_connection` has returned can be up. -/
def World.Numbered (w : World κ) : Prop := ∀ l, w.opened ≤ l → w.isUp l = false

/-- Bleak's `disconnect()` closes the link that it is called on, also when it raises. -/
def DisconnectCloses (w₀ w : World κ) : Prop :=
  ∀ l, .disconnectFailed l ∈ w₀.newTrace w → w.isUp l = false

/-- Of the links that were opened since `w₀`, only `kept` may be up. -/
def OthersDown (w₀ w : World κ) (kept : Option Nat) : Prop :=
  ∀ m, w₀.opened ≤ m → m < w.opened → kept ≠ some m → w.isUp m = false

/-- Of the links that were opened since `w₀`, each one that the client does not
    hold any more has been taken out of it by `disconnect()`. -/
def NoneDropped (w₀ w : World κ) : Prop :=
  ∀ m, w₀.opened ≤ m → m < w.opened → w.self.client ≠ some m →
    .disconnecting m ∈ w₀.newTrace w

/-- A call that returns has greeted the scooter on the one link that is open;
    after one that raises no link is open, and none was dropped. -/
def AllOrNothing (w₀ : World κ) : Res Exc Unit → World κ → Prop
  | .ret (), w => ∃ l, w.self.client = some l ∧ w₀.opened ≤ l ∧ w.isUp l = true ∧
      .handshaken (some l) ∈ w₀.newTrace w ∧ OthersDown w₀ w (some l) ∧ NoneDropped w₀ w
  | .raised _, w => w.isConnected = false ∧ OthersDown w₀ w none ∧ NoneDropped w₀ w
  | .pending, _ => True

/-- What may become of a link and of the calls on it: the serial number is read
    over it, which no handshake goes without, exactly if it is not lost; or it
    has no RX characteristic, `start_notify` returned, and `stop_notify` raised
    nothing that `disconnect` lets pass. -/
def LinkInOrder (w₀ w : World κ) (l : Nat) : Prop :=
  (SerialRead (AnsweredOver w₀ w l) ↔ .lost l ∉ w₀.newTrace w) ∨
    ((w.links l).rx = .missing ∧ (∀ e, .notifyFailed l e ∉ w₀.newTrace w) ∧
      ∀ e, .stopFailed l e ∈ w₀.newTrace w → e.isInstance [.bleakError, .osError] = true)

/-- How the awaited calls must end for no link to be left behind: on no link
    does `start_notify` raise what `_connect_transport` catches, and either
    `establish_connection` raises or all goes well with the last link. -/
def EndsInOrder (w₀ w : World κ) : Prop :=
  (∀ l e, .notifyFailed l e ∈ w₀.newTrace w → e.isTransport = false) ∧
    (.notOpened ∈ w₀.newTrace w ∨ LinkInOrder w₀ w (w.opened - 1))

/-! ## While the client waits -/

/-- From `w` to `w'` links are lost, but no link is opened or closed, and
    unless another task intervenes the client keeps its link. -/
structure Watches (w w' : World κ) : Prop where
  trace : w.trace <:+ w'.trace
  opened : w'.opened = w.opened
  rx : ∀ l, (w'.links l).rx = (w.links l).rx
  up : ∀ l, w'.isUp l = true ↔ w.isUp l = true ∧ .lost l ∉ w.newTrace w'
  fates : ∀ o ∈ w.newTrace w', o.isFate = true → ∃ l, o = .lost l ∧ w.isUp l = true
  alone : w.alone = true → w'.alone = true ∧ w'.self.client = w.self.client

namespace Watches

variable {w w' w'' : World κ}

/-- Nothing becomes of the links. -/
theorem of_quiet (new : List Obs) (htrace : w'.trace = new ++ w.trace)
    (hnew : ∀ o ∈ new, o.isFate = false) (hopened : w'.opened = w.opened)
    (hlinks : ∀ l, (w'.links l).isConnected = (w.links l).isConnected ∧
      (w'.links l).rx = (w.links l).rx)
    (halone : w.alone = true → w'.alone = true ∧ w'.self.client = w.self.client) :
    Watches w w' := by
  have heq : w.newTrace w' = new := World.newTrace_eq htrace
  refine ⟨⟨new, htrace.symm⟩, hopened, fun l => (hlinks l).2, ?_, ?_, halone⟩
  · intro l
    have hlost : .lost l ∉ w.newTrace w' := by
      rw [heq]
      intro hmem
      exact absurd (hnew _ hmem) (by simp [Obs.isFate])
    show (w'.links l).isConnected = true ↔ (w.links l).isConnected = true ∧ _
    rw [(hlinks l).1]
    exact (and_iff_left hlost).symm
  · intro o ho hfate
    rw [heq] at ho
    rw [hnew o ho] at hfate
    cases hfate

theorem refl (w : World κ) : Watches w w :=
  of_quiet [] rfl (by simp) rfl (fun _ => ⟨rfl, rfl⟩) fun h => ⟨h, rfl⟩

theorem trans (h : Watches w w') (h' : Watches w' w'') : Watches w w'' := by
  have hnew := World.newTrace_trans h.trace h'.trace
  refine ⟨h.trace.trans h'.trace, h'.opened.trans h.opened, fun l => (h'.rx l).trans (h.rx l),
    ?_, ?_, ?_⟩
  · intro l
    rw [h'.up l, h.up l, hnew, List.mem_append]
    tauto
  · intro o ho hfate
    rw [hnew] at ho
    rcases List.mem_append.mp ho with hlater | hearlier
    · obtain ⟨l, hl, hup⟩ := h'.fates o hlater hfate
      exact ⟨l, hl, ((h.up l).mp hup).1⟩
    · exact h.fates o hearlier hfate
  · intro halone
    obtain ⟨h₁, hclient₁⟩ := h.alone halone
    obtain ⟨h₂, hclient₂⟩ := h'.alone h₁
    exact ⟨h₂, hclient₂.trans hclient₁⟩

instance : Std.Refl (Watches (κ := κ)) := ⟨refl⟩

instance : IsTrans (World κ) Watches := ⟨fun _ _ _ => trans⟩

theorem log (w : World κ) {o : Obs} (h : o.isFate = false) : Watches w (w.log o) :=
  of_quiet [o] rfl (by simpa using h) rfl (fun _ => ⟨rfl, rfl⟩) fun h => ⟨h, rfl⟩

/-- Steps that touch neither the trace nor the links. -/
theorem congr (htrace : w'.trace = w.trace) (hopened : w'.opened = w.opened)
    (hlinks : w'.links = w.links) (hscript : w'.script = w.script)
    (hclient : w'.self.client = w.self.client) : Watches w w' := by
  apply of_quiet [] htrace (by simp) hopened
  · intro l
    rw [hlinks]
    exact ⟨rfl, rfl⟩
  · intro h
    refine ⟨?_, hclient⟩
    rwa [World.alone, hscript]

theorem setScript (w : World κ) {s : List Step} (h : s <:+ w.script) :
    Watches w (w.setScript s) := by
  refine of_quiet [] rfl (by simp) rfl (fun _ => ⟨rfl, rfl⟩) fun halone => ⟨?_, rfl⟩
  exact List.all_eq_true.mpr fun x hx => List.all_eq_true.mp halone x (h.subset hx)

theorem subscribe (w : World κ) (l : Nat) (on : Bool) : Watches w (w.subscribe l on) := by
  refine of_quiet [] rfl (by simp) rfl ?_ fun h => ⟨h, rfl⟩
  intro m
  by_cases hm : m = l
  · simp [World.subscribe, World.setLink, hm]
  · simp [World.subscribe, World.setLink, hm]

theorem putNowait (w : World κ) (a : Arrival) : Watches w (w.putNowait a) := by
  unfold World.putNowait
  split
  · exact congr rfl rfl rfl rfl rfl
  · exact log w rfl

theorem reset [Cipher κ] (w : World κ) : Watches w w.resetTransport :=
  of_quiet [.cleared] rfl (by simp [Obs.isFate]) rfl (fun _ => ⟨rfl, rfl⟩) fun h => ⟨h, rfl⟩

theorem lose (w : World κ) (l : Nat) (hup : w.isUp l = true) :
    Watches w ((w.close l).log (.lost l)) := by
  have heq : w.newTrace ((w.close l).log (.lost l)) = [.lost l] := World.newTrace_eq rfl
  refine ⟨List.suffix_cons _ _, rfl, ?_, ?_, ?_, fun h => ⟨h, rfl⟩⟩
  · intro m
    by_cases hm : m = l
    · simp [World.close, World.setLink, World.log, hm]
    · simp [World.close, World.setLink, World.log, hm]
  · intro m
    rw [heq]
    by_cases hm : m = l
    · simp [World.isUp, World.close, World.setLink, World.log, hm]
    · simp [World.isUp, World.close, World.setLink, World.log, hm]
  · intro o ho _
    rw [heq, List.mem_singleton] at ho
    exact ⟨l, ho, hup⟩

theorem discarded (w : World κ) : Watches w w.discarded :=
  World.discarded_of (fun w _ => log w rfl) (fun _ _ => congr rfl rfl rfl rfl rfl) w

theorem hears : Hears (Watches (κ := κ)) where
  state _ _ := congr rfl rfl rfl rfl rfl
  receive w _ _ _ := (log w rfl).trans (putNowait _ _)
  buffer _ _ := congr rfl rfl rfl rfl rfl
  lose := lose
  tick _ _ := congr rfl rfl rfl rfl rfl

variable [Cipher κ]

/-- An event that the script allows. -/
theorem apply (e : Event) (w : World κ) (he : .event e ∈ w.script) : Watches w (w.apply e) := by
  apply hears.apply e w
  rintro rfl
  -- Only another task lets go of the client's link.
  refine of_quiet [_] rfl (by simp [Obs.isFate]) rfl (fun _ => ⟨rfl, rfl⟩) fun halone => ?_
  exact absurd (List.all_eq_true.mp halone _ he) (by simp [Step.isDetach])

theorem asks : Asks (Watches (κ := κ)) where
  event := apply
  script w _ h := setScript w h
  note w _ _ _ h := log w h
  take {w a w'} h := by
    obtain ⟨rest, _, rfl⟩ := popResponse_eq h
    have hqueue : Watches w (w.setResponses rest) := congr rfl rfl rfl rfl rfl
    exact hqueue.trans (log _ rfl)
  deed w _ _ h := log w h
  cipher _ _ := congr rfl rfl rfl rfl rfl
  answer _ h _ _ := h.trans (log _ rfl)

theorem joins : Joins (Watches (κ := κ)) :=
  asks.joins (fun _ _ => congr rfl rfl rfl rfl rfl) fun _ => congr rfl rfl rfl rfl rfl

end Watches

/-! ## One call of `connect` -/

/-- The link that this is about. -/
def Obs.fateOf : Obs → Option Nat
  | .lost l | .notifyFailed l _ | .stopFailed l _ | .disconnecting l => some l
  | .handshaken l => l
  | _ => none

/-- What holds throughout a call that began at `w₀` and that no other task disturbs. -/
structure Since (w₀ w : World κ) : Prop where
  trace : w₀.trace <:+ w.trace
  begun : w₀.opened ≤ w.opened
  numbered : w.Numbered
  alone : w.alone = true
  known : ∀ o ∈ w₀.newTrace w, ∀ l, o.fateOf = some l → l < w.opened
  lost : ∀ l, .lost l ∈ w₀.newTrace w → w.isUp l = false

/-- This link is down, or bleak's `disconnect()` raised. -/
def Gone (w₀ w : World κ) (l : Nat) : Prop :=
  w.isUp l = false ∨ .disconnectFailed l ∈ w₀.newTrace w

/-- The client has disconnected from this link. -/
def Parted (w₀ w : World κ) (l : Nat) : Prop :=
  .disconnecting l ∈ w₀.newTrace w ∧ Gone w₀ w l

/-- Link `l` was opened last, nobody has closed it, and its handshake is not
    complete; the client has parted from the earlier ones. -/
structure Last (w₀ w : World κ) (l : Nat) : Prop extends Since w₀ w where
  last : w.opened = l + 1
  first : w₀.opened ≤ l
  lossOnly : w.isUp l = false → .lost l ∈ w₀.newTrace w
  ungreeted : .handshaken (some l) ∉ w₀.newTrace w
  earlier : ∀ m, w₀.opened ≤ m → m < l → Parted w₀ w m
  subscribed : ∀ m e, .notifyFailed m e ∈ w₀.newTrace w → m = l
  allOpened : .notOpened ∉ w₀.newTrace w

/-- `start_notify` returned on the last link, and `stop_notify` raised at most
    what `disconnect` catches. -/
structure Used (w₀ w : World κ) (l : Nat) (rx : RxChar) : Prop extends Last w₀ w l where
  rx : (w.links l).rx = rx
  notified : ∀ e, .notifyFailed l e ∉ w₀.newTrace w
  stopped : ∀ e, .stopFailed l e ∈ w₀.newTrace w → e.isInstance [.bleakError, .osError] = true

/-- No link is open, and another one may be opened. -/
structure Free (w₀ w : World κ) : Prop extends Since w₀ w where
  closed : w.isConnected = false
  parted : ∀ m, w₀.opened ≤ m → m < w.opened → Parted w₀ w m
  notified : ∀ m e, .notifyFailed m e ∉ w₀.newTrace w
  allOpened : .notOpened ∉ w₀.newTrace w

section Steps

variable {w₀ w w' : World κ} {l : Nat} {rx : RxChar}

/-- While the client waits, the trace gets no other fates than losses. -/
theorem Watches.mem_iff (h : Watches w w') (hw : w₀.trace <:+ w.trace) {o : Obs}
    (ho : o.isFate = true) (hlost : ∀ l, o ≠ .lost l) :
    o ∈ w₀.newTrace w' ↔ o ∈ w₀.newTrace w := by
  rw [World.newTrace_trans hw h.trace, List.mem_append]
  constructor
  · intro hmem
    rcases hmem with hnew | hold
    · obtain ⟨l, hl, _⟩ := h.fates o hnew ho
      exact absurd hl (hlost l)
    · exact hold
  · exact Or.inr

theorem World.down_iff {w : World κ} {l : Nat} : w.isUp l = false ↔ ¬ w.isUp l = true := by simp

theorem Watches.down (h : Watches w w') (hdown : w.isUp l = false) : w'.isUp l = false := by
  rw [World.down_iff] at hdown ⊢
  intro hup
  exact hdown ((h.up l).mp hup).1

theorem Since.refl (hnumbered : w.Numbered) (halone : w.alone = true) : Since w w := by
  have hnone := w.newTrace_self
  refine ⟨List.suffix_refl _, Nat.le_refl _, hnumbered, halone, ?_, ?_⟩
  · simp [hnone]
  · simp [hnone]

theorem Since.watches (h : Since w₀ w) (hw : Watches w w') : Since w₀ w' := by
  have hnew := World.newTrace_trans h.trace hw.trace
  refine ⟨h.trace.trans hw.trace, hw.opened ▸ h.begun, ?_, (hw.alone h.alone).1, ?_, ?_⟩
  · intro l hl
    rw [hw.opened] at hl
    exact hw.down (h.numbered l hl)
  · intro o ho l hfate
    rw [hw.opened]
    rw [hnew] at ho
    rcases List.mem_append.mp ho with hlater | hearlier
    · -- Only a link that is up can be lost.
      have hisFate : o.isFate = true := by cases o <;> first | rfl | cases hfate
      obtain ⟨m, rfl, hup⟩ := hw.fates o hlater hisFate
      obtain rfl : m = l := Option.some.inj hfate
      by_contra hlt
      exact World.down_iff.mp (h.numbered m (Nat.le_of_not_lt hlt)) hup
    · exact h.known o hearlier l hfate
  · intro l hl
    rw [hnew] at hl
    rcases List.mem_append.mp hl with hlater | hearlier
    · rw [World.down_iff, hw.up l]
      exact fun hup => hup.2 hlater
    · exact hw.down (h.lost l hearlier)

theorem Free.refl (hnumbered : w.Numbered) (hclosed : w.isConnected = false)
    (halone : w.alone = true) : Free w w := by
  have hnone := w.newTrace_self
  refine ⟨Since.refl hnumbered halone, hclosed, ?_, by simp [hnone], by simp [hnone]⟩
  intro m hm hlt
  exact absurd hm (Nat.not_le_of_lt hlt)

theorem Gone.watches (h : Gone w₀ w l) (hs : Since w₀ w) (hw : Watches w w') : Gone w₀ w' l := by
  rcases h with hdown | hfailed
  · exact Or.inl (hw.down hdown)
  · exact Or.inr ((hw.mem_iff hs.trace rfl (by simp)).mpr hfailed)

theorem Parted.watches (h : Parted w₀ w l) (hs : Since w₀ w) (hw : Watches w w') :
    Parted w₀ w' l :=
  ⟨(hw.mem_iff hs.trace rfl (by simp)).mpr h.1, h.2.watches hs hw⟩

theorem Last.watches (h : Last w₀ w l) (hw : Watches w w') : Last w₀ w' l := by
  refine ⟨h.toSince.watches hw, hw.opened.trans h.last, h.first, ?_, ?_, ?_, ?_, ?_⟩
  · intro hdown
    rw [World.newTrace_trans h.trace hw.trace]
    by_cases hup : w.isUp l = true
    · -- It was up before: it has just been lost.
      have hlost : .lost l ∈ w.newTrace w' := by
        by_contra hnot
        exact World.down_iff.mp hdown ((hw.up l).mpr ⟨hup, hnot⟩)
      exact List.mem_append_left _ hlost
    · exact List.mem_append_right _ (h.lossOnly (World.down_iff.mpr hup))
  · rw [hw.mem_iff h.trace rfl (by simp)]
    exact h.ungreeted
  · intro m hm hlt
    exact (h.earlier m hm hlt).watches h.toSince hw
  · intro m e
    rw [hw.mem_iff h.trace rfl (by simp)]
    exact h.subscribed m e
  · rw [hw.mem_iff h.trace rfl (by simp)]
    exact h.allOpened

theorem Used.watches (h : Used w₀ w l rx) (hw : Watches w w') : Used w₀ w' l rx := by
  refine ⟨h.toLast.watches hw, (hw.rx l).trans h.rx, ?_, ?_⟩
  · intro e
    rw [hw.mem_iff h.trace rfl (by simp)]
    exact h.notified e
  · intro e he
    rw [hw.mem_iff h.trace rfl (by simp)] at he
    exact h.stopped e he

theorem Free.watches (h : Free w₀ w) (hw : Watches w w') : Free w₀ w' := by
  refine ⟨h.toSince.watches hw, ?_, ?_, ?_, ?_⟩
  · have hclosed := h.closed
    rw [World.isConnected] at hclosed ⊢
    rw [(hw.alone h.alone).2]
    cases hc : w.self.client with
    | none => rfl
    | some m =>
      rw [hc] at hclosed
      exact hw.down hclosed
  · intro m hm hlt
    rw [hw.opened] at hlt
    exact (h.parted m hm hlt).watches h.toSince hw
  · intro m e
    rw [hw.mem_iff h.trace rfl (by simp)]
    exact h.notified m e
  · rw [hw.mem_iff h.trace rfl (by simp)]
    exact h.allOpened

end Steps

/-! ## How a call fails -/

/-- The handshakes that are complete are those whose links the serial number was read over. -/
def HandshakesRead (w₀ w : World κ) : Prop :=
  ∀ l, SerialRead (AnsweredOver w₀ w l) ↔ .handshaken (some l) ∈ w₀.newTrace w

/-- A call that raises here keeps the promise exactly if its awaited calls ended in order. -/
def Settles (w₀ w : World κ) : Prop :=
  ∀ e, DisconnectCloses w₀ w → HandshakesRead w₀ w →
    (AllOrNothing w₀ (.raised e) w ↔ EndsInOrder w₀ w)

/-- The client is about to disconnect from the last link. -/
structure Leaving (w₀ w : World κ) (l : Nat) (rx : RxChar) : Prop extends Used w₀ w l rx where
  client : w.self.client = none
  leaving : .disconnecting l ∈ w₀.newTrace w

/-- The last link has been unsubscribed and closed, if it was up. -/
structure Torn (w₀ w : World κ) (l : Nat) (rx : RxChar) : Prop extends Free w₀ w where
  last : w.opened = l + 1
  rx : (w.links l).rx = rx
  stopped : ∀ e, .stopFailed l e ∈ w₀.newTrace w → e.isInstance [.bleakError, .osError] = true

section Failures

variable {w₀ w w' : World κ} {l : Nat} {rx : RxChar}

theorem OthersDown.of_gone {kept : Option Nat} (hcloses : DisconnectCloses w₀ w)
    (h : ∀ m, w₀.opened ≤ m → m < w.opened → kept ≠ some m → Gone w₀ w m) :
    OthersDown w₀ w kept := by
  intro m hm hlt hkept
  rcases h m hm hlt hkept with hdown | hfailed
  · exact hdown
  · exact hcloses m hfailed

/-- The client has parted from every link: the promise is kept. -/
theorem settles_of_parted (hclosed : w.isConnected = false)
    (hparted : ∀ m, w₀.opened ≤ m → m < w.opened → Parted w₀ w m)
    (hends : EndsInOrder w₀ w) : Settles w₀ w := by
  intro e hcloses _
  have hdown : OthersDown w₀ w none :=
    OthersDown.of_gone hcloses fun m hm hlt _ => (hparted m hm hlt).2
  have hnone : NoneDropped w₀ w := fun m hm hlt _ => (hparted m hm hlt).1
  exact ⟨fun _ => hends, fun _ => ⟨hclosed, hdown, hnone⟩⟩

/-- A link is the last one or an earlier one. -/
theorem Last.cases {m : Nat} (h : Last w₀ w l) (hlt : m < w.opened) : m < l ∨ m = l := by
  rw [h.last] at hlt
  exact Nat.lt_succ_iff_lt_or_eq.mp hlt

/-- The last link has not been closed, and has not been dropped either: the
    promise is kept if it was lost. -/
theorem Last.settles (h : Last w₀ w l)
    (hclient : (w.self.client = none ∧ .disconnecting l ∈ w₀.newTrace w) ∨
      w.self.client = some l)
    (hcaught : ∀ e, .notifyFailed l e ∈ w₀.newTrace w → e.isTransport = false)
    (hrest : DisconnectCloses w₀ w → (w.links l).rx = .missing →
      (∀ e, .notifyFailed l e ∉ w₀.newTrace w) →
      (∀ e, .stopFailed l e ∈ w₀.newTrace w → e.isInstance [.bleakError, .osError] = true) →
      w.isUp l = false) : Settles w₀ w := by
  intro e hcloses hagree
  have hlast : w.opened - 1 = l := by rw [h.last, Nat.add_sub_cancel]
  -- The client has parted from the earlier links, so the promise is about the last one.
  have hdown : AllOrNothing w₀ (.raised e) w ↔ w.isUp l = false := by
    constructor
    · intro hall
      refine hall.2.1 l h.first ?_ (by simp)
      rw [h.last]
      exact Nat.lt_succ_self l
    · intro hdown
      refine ⟨?_, OthersDown.of_gone hcloses fun m hm hlt _ => ?_, fun m hm hlt hother => ?_⟩
      · rw [World.isConnected]
        rcases hclient with hc | hc
        · rw [hc.1]
        · rw [hc]
          exact hdown
      · rcases h.cases hlt with hlt | rfl
        · exact (h.earlier m hm hlt).2
        · exact Or.inl hdown
      · rcases h.cases hlt with hlt | rfl
        · exact (h.earlier m hm hlt).1
        · rcases hclient with hc | hc
          · exact hc.2
          · exact absurd hc hother
  have hfirst : ∀ m e, .notifyFailed m e ∈ w₀.newTrace w → e.isTransport = false := by
    intro m e hm
    obtain rfl := h.subscribed m e hm
    exact hcaught e hm
  have hunread : ¬ SerialRead (AnsweredOver w₀ w l) := fun hread =>
    h.ungreeted ((hagree l).mp hread)
  rw [hdown, EndsInOrder, and_iff_right hfirst, hlast, LinkInOrder]
  constructor
  · exact fun hd => Or.inr (Or.inl (iff_of_false hunread (not_not_intro (h.lossOnly hd))))
  · -- Every link was opened, so the last one must have gone down in one of the two ways.
    intro hends
    rcases hends with hnot | hlost | ⟨hrx, hnotified, hstopped⟩
    · exact absurd hnot h.allOpened
    · exact h.lost l (not_not.mp (mt hlost.mpr hunread))
    · exact hrest hcloses hrx hnotified hstopped

/-- With an RX characteristic, only a loss takes the last link down. -/
theorem Used.settles (h : Used w₀ w l rx) (hrx : rx ≠ .missing)
    (hclient : w.self.client = some l) : Settles w₀ w :=
  h.toLast.settles (Or.inr hclient) (fun e he => absurd he (h.notified e))
    fun _ hmissing _ _ => absurd (h.rx.symm.trans hmissing) hrx

/-- A link without RX characteristic that is torn down is not left behind. -/
theorem Torn.settles (h : Torn w₀ w l .missing) : Settles w₀ w := by
  refine settles_of_parted h.closed h.parted ⟨fun m e he => absurd he (h.notified m e), Or.inr ?_⟩
  have hlast : w.opened - 1 = l := by rw [h.last, Nat.add_sub_cancel]
  rw [hlast, LinkInOrder]
  exact Or.inr ⟨h.rx, h.notified l, h.stopped⟩

/-! ## What each step does to the links -/

/-- Steps that touch neither the trace nor the links. -/
theorem Since.congr (h : Since w₀ w) (htrace : w'.trace = w.trace) (hlinks : w'.links = w.links)
    (hopened : w'.opened = w.opened) (hscript : w'.script = w.script) : Since w₀ w' := by
  have hnew : w₀.newTrace w' = w₀.newTrace w := by rw [World.newTrace, World.newTrace, htrace]
  have hup : w'.isUp = w.isUp := by
    funext m
    rw [World.isUp, World.isUp, hlinks]
  refine ⟨htrace ▸ h.trace, hopened ▸ h.begun, ?_, ?_, ?_, ?_⟩
  · intro m hm
    rw [hup]
    exact h.numbered m (hopened ▸ hm)
  · rw [World.alone, hscript]
    exact h.alone
  · rw [hnew, hopened]
    exact h.known
  · rw [hnew, hup]
    exact h.lost

theorem Last.setClient (h : Last w₀ w l) (c : Option Nat) : Last w₀ (w.setClient c) l :=
  ⟨h.toSince.congr rfl rfl rfl rfl, h.last, h.first, h.lossOnly, h.ungreeted, h.earlier,
    h.subscribed, h.allOpened⟩

theorem Used.setClient (h : Used w₀ w l rx) (c : Option Nat) : Used w₀ (w.setClient c) l rx :=
  ⟨h.toLast.setClient c, h.rx, h.notified, h.stopped⟩

/-- A note about the link that was opened last. -/
theorem Since.log (h : Since w₀ w) {o : Obs} (hlast : ∀ l, o.fateOf = some l → l < w.opened)
    (hlost : ∀ l, o ≠ .lost l) : Since w₀ (w.log o) := by
  refine ⟨h.trace.trans (List.suffix_cons _ _), h.begun, h.numbered, h.alone, ?_, ?_⟩
  · intro o' ho' m hm
    rcases (World.mem_newTrace_log h.trace).mp ho' with rfl | hold
    · exact hlast m hm
    · exact h.known o' hold m hm
  · intro m hm
    rcases (World.mem_newTrace_log h.trace).mp hm with heq | hold
    · exact absurd heq.symm (hlost m)
    · exact h.lost m hold

theorem Gone.log (h : Gone w₀ w l) (hw : w₀.trace <:+ w.trace) (o : Obs) :
    Gone w₀ (w.log o) l :=
  h.imp id fun hmem => (World.mem_newTrace_log hw).mpr (Or.inr hmem)

theorem Parted.log (h : Parted w₀ w l) (hw : w₀.trace <:+ w.trace) (o : Obs) :
    Parted w₀ (w.log o) l :=
  ⟨(World.mem_newTrace_log hw).mpr (Or.inr h.1), h.2.log hw o⟩

theorem Last.log (h : Last w₀ w l) {o : Obs} (hlast : ∀ m, o.fateOf = some m → m = l)
    (hlost : ∀ m, o ≠ .lost m) (hgreeted : o ≠ .handshaken (some l)) (hopened : o ≠ .notOpened) :
    Last w₀ (w.log o) l := by
  refine ⟨h.toSince.log ?_ hlost, h.last, h.first, ?_, ?_, ?_, ?_, ?_⟩
  · intro m hm
    rw [hlast m hm, h.last]
    exact Nat.lt_succ_self l
  · intro hdown
    exact (World.mem_newTrace_log h.trace).mpr (Or.inr (h.lossOnly hdown))
  · rw [World.mem_newTrace_log h.trace]
    rintro (heq | hold)
    · exact hgreeted heq.symm
    · exact h.ungreeted hold
  · intro m hm hlt
    exact (h.earlier m hm hlt).log h.trace o
  · intro m e hm
    rcases (World.mem_newTrace_log h.trace).mp hm with rfl | hold
    · exact hlast m rfl
    · exact h.subscribed m e hold
  · rw [World.mem_newTrace_log h.trace]
    rintro (heq | hold)
    · exact hopened heq.symm
    · exact h.allOpened hold

/-- The next link is opened, and the client takes it. -/
theorem Free.linked (h : Free w₀ w) (rx : RxChar) :
    Used w₀ ((w.linked rx).setClient (some w.opened)) w.opened rx ∧
      .disconnecting w.opened ∉ w₀.newTrace ((w.linked rx).setClient (some w.opened)) := by
  have hmem : ∀ o, o ∈ w₀.newTrace (w.linked rx) ↔ o = .opened w.opened ∨ o ∈ w₀.newTrace w :=
    World.mem_newTrace_cons h.trace rfl
  have hother : ∀ m, m ≠ w.opened → (w.linked rx).isUp m = w.isUp m := by
    intro m hm
    simp [World.linked, World.log, World.isUp, World.setLink, hm]
  have hnew : (w.linked rx).isUp w.opened = true := by
    simp [World.linked, World.log, World.isUp, World.setLink]
  -- Nothing was noted about this link before.
  have hfresh : ∀ o, o.fateOf = some w.opened → o ∉ w₀.newTrace (w.linked rx) := by
    intro o ho hnot
    rcases (hmem o).mp hnot with rfl | hold
    · cases ho
    · exact Nat.lt_irrefl _ (h.known o hold w.opened ho)
  -- The numbers of the links go up by one, and the earlier links stay as they were.
  have hsince : Since w₀ (w.linked rx) := by
    refine ⟨h.trace.trans (List.suffix_cons _ _), Nat.le_succ_of_le h.begun, ?_, h.alone, ?_, ?_⟩
    · intro m hm
      have hlt : w.opened < m := hm
      rw [hother m (Nat.ne_of_gt hlt)]
      exact h.numbered m (Nat.le_of_lt hlt)
    · intro o ho m hm
      rcases (hmem o).mp ho with rfl | hold
      · cases hm
      · exact Nat.lt_succ_of_lt (h.known o hold m hm)
    · intro m hm
      rcases (hmem _).mp hm with heq | hold
      · cases heq
      · have hlt : m < w.opened := h.known _ hold m rfl
        rw [hother m (Nat.ne_of_lt hlt)]
        exact h.lost m hold
  have hlast : Last w₀ (w.linked rx) w.opened := by
    refine ⟨hsince, rfl, h.begun, ?_, hfresh _ rfl, ?_, ?_, ?_⟩
    · intro hdown
      rw [hnew] at hdown
      cases hdown
    · intro m hm hlt
      rw [Parted, Gone, hother m (Nat.ne_of_lt hlt), hmem, hmem]
      exact (h.parted m hm hlt).imp Or.inr fun hgone => hgone.imp id Or.inr
    · intro m e he
      rcases (hmem _).mp he with heq | hold
      · cases heq
      · exact absurd hold (h.notified m e)
    · rw [hmem]
      simpa using h.allOpened
  refine ⟨⟨hlast.setClient _, ?_, fun e => hfresh _ rfl, fun e he => absurd he (hfresh _ rfl)⟩,
    hfresh _ rfl⟩
  simp [World.linked, World.log, World.setClient, World.setLink]

/-- A note about the last link, other than that it failed or may have failed. -/
theorem Used.log (h : Used w₀ w l rx) {o : Obs} (hlast : Last w₀ (w.log o) l)
    (hnotified : ∀ e, o ≠ .notifyFailed l e)
    (hstopped : ∀ e, o = .stopFailed l e → e.isInstance [.bleakError, .osError] = true) :
    Used w₀ (w.log o) l rx := by
  refine ⟨hlast, h.rx, ?_, ?_⟩
  · intro e
    rw [World.mem_newTrace_log h.trace]
    rintro (heq | hold)
    · exact hnotified e heq.symm
    · exact h.notified e hold
  · intro e he
    rcases (World.mem_newTrace_log h.trace).mp he with heq | hold
    · exact hstopped e heq.symm
    · exact h.stopped e hold

theorem Last.notifyFailed (h : Last w₀ w l) (e : Exc) : Last w₀ (w.log (.notifyFailed l e)) l := by
  refine h.log ?_ (by simp) (by simp) (by simp)
  intro m hm
  exact (Option.some.inj hm).symm

theorem Last.disconnecting (h : Last w₀ w l) : Last w₀ (w.log (.disconnecting l)) l := by
  refine h.log ?_ (by simp) (by simp) (by simp)
  intro m hm
  exact (Option.some.inj hm).symm

theorem Last.stopFailed (h : Last w₀ w l) (e : Exc) : Last w₀ (w.log (.stopFailed l e)) l := by
  refine h.log ?_ (by simp) (by simp) (by simp)
  intro m hm
  exact (Option.some.inj hm).symm

theorem Last.disconnectFailed (h : Last w₀ w l) : Last w₀ (w.log (.disconnectFailed l)) l :=
  h.log (by simp [Obs.fateOf]) (by simp) (by simp) (by simp)

/-- `start_notify` has not raised on any link. -/
theorem Used.allNotified (h : Used w₀ w l rx) (m : Nat) (e : Exc) :
    .notifyFailed m e ∉ w₀.newTrace w := by
  intro hm
  obtain rfl := h.subscribed m e hm
  exact h.notified e hm

theorem Leaving.watches (h : Leaving w₀ w l rx) (hw : Watches w w') : Leaving w₀ w' l rx :=
  ⟨h.toUsed.watches hw, (hw.alone h.alone).2.trans h.client,
    (hw.mem_iff h.trace rfl (by simp)).mpr h.leaving⟩

/-- The link that the client leaves is gone. -/
theorem Leaving.torn (h : Leaving w₀ w l rx) (hgone : Gone w₀ w l) : Torn w₀ w l rx := by
  refine ⟨⟨h.toSince, ?_, ?_, h.allNotified, h.allOpened⟩, h.last, h.rx, h.stopped⟩
  · rw [World.isConnected, h.client]
  · intro m hm hlt
    rcases h.cases hlt with hlt | rfl
    · exact h.earlier m hm hlt
    · exact ⟨h.leaving, hgone⟩

theorem World.close_down (w : World κ) (l : Nat) : (w.close l).isUp l = false := by
  simp [World.isUp, World.close, World.setLink]

theorem World.close_keepsDown {m : Nat} (h : w.isUp m = false) (l : Nat) :
    (w.close l).isUp m = false := by
  by_cases hm : m = l
  · simp [World.isUp, World.close, World.setLink, hm]
  · simpa [World.isUp, World.close, World.setLink, hm] using h

/-- The link is closed after the client has let go of it. -/
theorem Leaving.closed (h : Leaving w₀ w l rx) :
    Torn w₀ ((w.close l).log (.disconnected l)) l rx := by
  have hmem : ∀ o, o ∈ w₀.newTrace ((w.close l).log (.disconnected l)) ↔
      o = .disconnected l ∨ o ∈ w₀.newTrace w :=
    World.mem_newTrace_cons h.trace rfl
  -- Closing a link brings none up, and says nothing about the failures before it.
  have hsince : Since w₀ ((w.close l).log (.disconnected l)) := by
    refine ⟨h.trace.trans (List.suffix_cons _ _), h.begun, ?_, h.alone, ?_, ?_⟩
    · intro m hm
      exact World.close_keepsDown (h.numbered m hm) l
    · intro o ho m hm
      rcases (hmem o).mp ho with rfl | hold
      · cases hm
      · exact h.known o hold m hm
    · intro m hm
      rcases (hmem _).mp hm with heq | hold
      · cases heq
      · exact World.close_keepsDown (h.lost m hold) l
  refine ⟨⟨hsince, ?_, ?_, ?_, ?_⟩, h.last, ?_, ?_⟩
  · have hnone : ((w.close l).log (.disconnected l)).self.client = none := h.client
    rw [World.isConnected, hnone]
  · intro m hm hlt
    rcases h.cases hlt with hearlier | rfl
    · obtain ⟨hleft, hgone⟩ := h.earlier m hm hearlier
      refine ⟨(hmem _).mpr (Or.inr hleft), ?_⟩
      rcases hgone with hdown | hfailed
      · exact Or.inl (World.close_keepsDown hdown l)
      · exact Or.inr ((hmem _).mpr (Or.inr hfailed))
    · exact ⟨(hmem _).mpr (Or.inr h.leaving), Or.inl (World.close_down w m)⟩
  · intro m e
    rw [hmem]
    simpa using h.allNotified m e
  · rw [hmem]
    simpa using h.allOpened
  · show ((w.close l).links l).rx = rx
    rw [← h.rx]
    simp [World.close, World.setLink]
  · intro e he
    rcases (hmem _).mp he with heq | hold
    · cases heq
    · exact h.stopped e hold

/-- No link was opened: whatever the client holds now, the promise is kept. -/
theorem Free.settles_unopened (h : Free w₀ w) (hw : w' = w.log .notOpened ∨
    w' = (w.log .notOpened).setClient none) : Settles w₀ w' := by
  have hparted : ∀ m, w₀.opened ≤ m → m < w.opened → Parted w₀ (w.log .notOpened) m :=
    fun m hm hlt => (h.parted m hm hlt).log h.trace _
  have hends : EndsInOrder w₀ (w.log .notOpened) := by
    refine ⟨fun m e he => ?_, Or.inl ((World.mem_newTrace_log h.trace).mpr (Or.inl rfl))⟩
    rcases (World.mem_newTrace_log h.trace).mp he with heq | hold
    · cases heq
    · exact absurd hold (h.notified m e)
  rcases hw with rfl | rfl
  · exact settles_of_parted h.closed hparted hends
  · exact settles_of_parted rfl hparted hends

/-- `start_notify` raised what nobody catches: the client keeps the link. -/
theorem Used.settles_unnotified (h : Used w₀ w l rx) (hclient : w.self.client = some l) {e : Exc}
    (he : e.isTransport = false) : Settles w₀ (w.log (.notifyFailed l e)) := by
  have hfailed : .notifyFailed l e ∈ w₀.newTrace (w.log (.notifyFailed l e)) :=
    (World.mem_newTrace_log h.trace).mpr (Or.inl rfl)
  refine (h.toLast.notifyFailed e).settles (Or.inr hclient) ?_
    fun _ _ hnot _ => absurd hfailed (hnot e)
  intro e' he'
  rcases (World.mem_newTrace_log h.trace).mp he' with heq | hold
  · cases heq
    exact he
  · exact absurd hold (h.notified e')

/-- `start_notify` raised what `_connect_transport` catches: the link is
    dropped, also if it is down. -/
theorem Used.settles_dropped (h : Used w₀ w l rx) (hkept : .disconnecting l ∉ w₀.newTrace w)
    {e : Exc} (he : e.isTransport = true) :
    Settles w₀ ((w.log (.notifyFailed l e)).setClient none) := by
  have hfailed : .notifyFailed l e ∈ w₀.newTrace (w.log (.notifyFailed l e)) :=
    (World.mem_newTrace_log h.trace).mpr (Or.inl rfl)
  intro _ _ _
  constructor
  · -- The client does not hold the link, so it should have left it.
    intro hall
    have hlt : l < ((w.log (.notifyFailed l e)).setClient none).opened := by
      show l < w.opened
      rw [h.last]
      exact Nat.lt_succ_self l
    have hleft := hall.2.2 l h.first hlt (Option.some_ne_none l).symm
    rcases (World.mem_newTrace_log h.trace).mp hleft with heq | hold
    · cases heq
    · exact absurd hold hkept
  · intro hends
    exact absurd he (by rw [hends.1 l e hfailed]; exact Bool.false_ne_true)

/-- The client holds the last link, which has an RX characteristic. -/
def Held (w₀ w : World κ) : Prop :=
  ∃ l rx, Used w₀ w l rx ∧ w.self.client = some l ∧ rx ≠ .missing

theorem Held.watches (h : Held w₀ w) (hw : Watches w w') : Held w₀ w' := by
  obtain ⟨l, rx, hused, hclient, hrx⟩ := h
  exact ⟨l, rx, hused.watches hw, (hw.alone hused.alone).2.trans hclient, hrx⟩

theorem Held.settles (h : Held w₀ w) : Settles w₀ w := by
  obtain ⟨l, rx, hused, hclient, hrx⟩ := h
  exact hused.settles hrx hclient

/-- A handshake that is complete: the promise is kept unless the link was lost meanwhile. -/
def Completes (w₀ w : World κ) : Prop :=
  DisconnectCloses w₀ w → HandshakesRead w₀ w →
    (AllOrNothing w₀ (.ret ()) w ↔ EndsInOrder w₀ w)

theorem Held.completes (h : Held w₀ w) : Completes w₀ (w.log (.handshaken w.self.client)) := by
  intro hcloses hagree
  obtain ⟨l, rx, hused, hclient, hrx⟩ := h
  rw [hclient] at hcloses hagree ⊢
  have hmem : ∀ {o}, o ∈ w₀.newTrace (w.log (.handshaken (some l))) ↔
      o = .handshaken (some l) ∨ o ∈ w₀.newTrace w := World.mem_newTrace_log hused.trace
  have hdone : .handshaken (some l) ∈ w₀.newTrace (w.log (.handshaken (some l))) :=
    hmem.mpr (Or.inl rfl)
  have hlast : (w.log (.handshaken (some l))).opened - 1 = l := by
    show w.opened - 1 = l
    rw [hused.last, Nat.add_sub_cancel]
  have hlost : .lost l ∈ w₀.newTrace (w.log (.handshaken (some l))) ↔ .lost l ∈ w₀.newTrace w := by
    rw [hmem]
    simp
  -- No call on a link has failed so far.
  have hnotified : ∀ m e, .notifyFailed m e ∈ w₀.newTrace (w.log (.handshaken (some l))) →
      e.isTransport = false := by
    intro m e he
    rcases hmem.mp he with heq | hold
    · cases heq
    · exact absurd hold (hused.allNotified m e)
  have hopened : .notOpened ∉ w₀.newTrace (w.log (.handshaken (some l))) := by
    rw [hmem]
    simpa using hused.allOpened
  have hmissing : ((w.log (.handshaken (some l))).links l).rx ≠ .missing := fun hnone =>
    hrx (hused.rx.symm.trans hnone)
  rw [EndsInOrder, and_iff_right hnotified, or_iff_right hopened, hlast, LinkInOrder,
    or_iff_left fun hnone => hmissing hnone.1, iff_true_left ((hagree l).mpr hdone), hlost]
  -- The link that was greeted is up unless it was lost meanwhile.
  constructor
  · intro hall
    obtain ⟨l', hl', _, hup, _⟩ := hall
    obtain rfl : l = l' := Option.some.inj (hclient.symm.trans hl')
    exact fun hlost' => World.down_iff.mp (hused.lost l hlost') hup
  · intro hkept
    have hup : w.isUp l = true := by
      by_contra hdown
      exact hkept (hused.lossOnly (World.down_iff.mpr hdown))
    refine ⟨l, hclient, hused.first, hup, hdone, OthersDown.of_gone hcloses ?_, ?_⟩
    · intro m hm hlt hother
      rcases hused.cases hlt with hearlier | rfl
      · exact (hused.earlier m hm hearlier).2.log hused.trace _
      · exact absurd rfl hother
    · intro m hm hlt hother
      rcases hused.cases hlt with hearlier | rfl
      · exact hmem.mpr (Or.inr (hused.earlier m hm hearlier).1)
      · exact absurd hclient hother

end Failures

/-! ## Opening and closing a link -/

section Calls

variable [Cipher κ] {w₀ w : World κ} {l : Nat} {rx : RxChar}

theorem Free.establish (h : Free w₀ w) :
    Triple establishConnection w
      (fun m w' => ∃ w₁ rx, Free w₀ w₁ ∧ m = w₁.opened ∧ w' = w₁.linked rx)
      (fun _ w' => ∃ w₁, Free w₀ w₁ ∧ w' = w₁.log .notOpened) (fun _ => True) := by
  apply (Watches.asks.toWaits.establish w).mono _ _ (fun _ _ => trivial)
  · intro m w' hopened
    obtain ⟨w₁, rx, hwatch, heq⟩ := hopened
    exact ⟨w₁, rx, h.watches hwatch, heq⟩
  · intro e w' hnot
    obtain ⟨_, w₁, hwatch, heq⟩ := hnot
    exact ⟨w₁, h.watches hwatch, heq⟩

/-- `stop_notify`: the link stays up, whether it raises or not. -/
theorem Leaving.stopNotify (h : Leaving w₀ w l rx) :
    Triple (attempt (·.isInstance [.bleakError, .osError]) (stopNotify l)) w
      (fun _ w' => Leaving w₀ w' l rx) (fun _ => Settles w₀) (fun _ => True) := by
  have hmem : ∀ {e : Exc} {w₁ : World κ} {o}, Leaving w₀ w₁ l rx → o ∈ w₀.newTrace w₁ →
      o ∈ w₀.newTrace (w₁.log (.stopFailed l e)) :=
    fun hleaving hold => (World.mem_newTrace_log hleaving.trace).mpr (Or.inr hold)
  apply Watches.asks.toWaits.attemptCall_triple
  · intro w₁ hw₁
    exact h.watches (hw₁.trans (Watches.subscribe w₁ l false))
  · intro e w₁ hw₁ hcaught
    have hleaving := h.watches hw₁
    have hlast := hleaving.toLast.stopFailed e
    refine ⟨hleaving.toUsed.log hlast (by simp) ?_, hleaving.client, hmem hleaving hleaving.leaving⟩
    intro e' heq
    cases heq
    exact hcaught
  · -- The exception leaves `disconnect`, and nobody has the link any more.
    intro e w₁ hw₁ hraised
    have hleaving := h.watches hw₁
    have hfailed : .stopFailed l e ∈ w₀.newTrace (w₁.log (.stopFailed l e)) :=
      (World.mem_newTrace_log hleaving.trace).mpr (Or.inl rfl)
    refine (hleaving.toLast.stopFailed e).settles
      (Or.inl ⟨hleaving.client, hmem hleaving hleaving.leaving⟩) ?_ fun _ _ _ hstopped => ?_
    · intro e' he'
      rcases (World.mem_newTrace_log hleaving.trace).mp he' with heq | hold
      · cases heq
      · exact absurd hold (hleaving.notified e')
    · exact absurd (hstopped e hfailed) (Bool.eq_false_iff.mp hraised)

/-- Bleak's `disconnect()`. -/
theorem Leaving.closeLink (h : Leaving w₀ w l rx) :
    Triple (attempt (·.isInstance [.bleakError, .osError]) (closeLink l)) w
      (fun _ w' => Torn w₀ w' l rx) (fun _ => Settles w₀) (fun _ => True) := by
  -- When it raises it has closed the link all the same.
  have hafter : ∀ {w₁ : World κ}, Watches w w₁ →
      .disconnectFailed l ∈ w₀.newTrace (w₁.log (.disconnectFailed l)) ∧
        Leaving w₀ (w₁.log (.disconnectFailed l)) l rx := by
    intro w₁ hw₁
    have hleaving := h.watches hw₁
    refine ⟨(World.mem_newTrace_log hleaving.trace).mpr (Or.inl rfl), ?_, hleaving.client, ?_⟩
    · exact hleaving.toUsed.log hleaving.toLast.disconnectFailed (by simp) (by simp)
    · exact (World.mem_newTrace_log hleaving.trace).mpr (Or.inr hleaving.leaving)
  apply Watches.asks.toWaits.attemptCall_triple
  · intro w₁ hw₁
    exact (h.watches hw₁).closed
  · intro e w₁ hw₁ _
    obtain ⟨hfailed, hleaving⟩ := hafter hw₁
    exact hleaving.torn (Or.inr hfailed)
  · intro e w₁ hw₁ _
    obtain ⟨hfailed, hleaving⟩ := hafter hw₁
    exact hleaving.toLast.settles (Or.inl ⟨hleaving.client, hleaving.leaving⟩)
      (fun e' he' => absurd he' (hleaving.notified e')) fun hcloses _ _ _ => hcloses l hfailed

theorem Used.disconnect (h : Used w₀ w l rx) (hclient : w.self.client = some l) :
    Triple disconnect w (fun _ w' => Torn w₀ w' l rx) (fun _ => Settles w₀) (fun _ => True) := by
  refine Triple.get_bind (Triple.modify_bind ?_)
  rw [hclient]
  have hused : Used w₀ (w.setClient none) l rx := h.setClient none
  have hleaving : Leaving w₀ ((w.setClient none).log (.disconnecting l)) l rx :=
    ⟨hused.log hused.toLast.disconnecting (by simp) (by simp), rfl,
      (World.mem_newTrace_log hused.trace).mpr (Or.inl rfl)⟩
  apply Triple.modify_bind
  -- A link that is down already is only forgotten.
  by_cases hup : w.isUp l = true
  · simp only [hup, if_true]
    refine Triple.bind hleaving.stopNotify fun _ w₁ h₁ => ?_
    refine Triple.bind h₁.closeLink fun _ w₂ h₂ => ?_
    exact Triple.pure h₂
  · simp only [hup]
    exact Triple.pure (hleaving.torn (Or.inl (World.down_iff.mpr hup)))

theorem Free.connectTransport (h : Free w₀ w) :
    Triple connectTransport w (fun _ => Held w₀) (fun _ => Settles w₀) (fun _ => True) := by
  apply Triple.modify_bind
  have hreset : Free w₀ w.resetTransport := h.watches (Watches.reset w)
  -- What the handler catches costs the client its link.
  refine Triple.attempt_bind (Q := fun _ w' => ∃ l rx, Used w₀ w' l rx ∧ w'.self.client = some l)
    (X := fun _ w' => Settles w₀ (w'.setClient none)) ?_ ?_ ?_
  · refine Triple.bind (hreset.establish.mono_raised ?_) ?_
    · intro e w' hended
      obtain ⟨w₁, hfree, rfl⟩ := hended
      split
      · exact hfree.settles_unopened (Or.inr rfl)
      · exact hfree.settles_unopened (Or.inl rfl)
    · intro l w' hended
      obtain ⟨w₁, rx, hfree, rfl, rfl⟩ := hended
      obtain ⟨hused, hkept⟩ := hfree.linked rx
      apply Triple.modify_bind
      apply Watches.asks.toWaits.call_triple
      · intro w₂ hw₂
        have hwatch := hw₂.trans (Watches.subscribe w₂ w₁.opened true)
        exact ⟨w₁.opened, rx, hused.watches hwatch, (hwatch.alone hused.alone).2⟩
      · intro e w₂ hw₂
        have hclient : w₂.self.client = some w₁.opened := (hw₂.alone hused.alone).2
        have hkept' : .disconnecting w₁.opened ∉ w₀.newTrace w₂ := by
          rwa [hw₂.mem_iff hused.trace rfl (by simp)]
        split
        · next he => exact (hused.watches hw₂).settles_dropped hkept' he
        · next he => exact (hused.watches hw₂).settles_unnotified hclient (by simpa using he)
  · intro _ w₁ h₁
    obtain ⟨l, rx, hused, hclient⟩ := h₁
    have hrx : Triple getRxCharacteristic w₁
        (fun size w' => w' = w₁ ∧ (size = none ↔ rx = .missing))
        (fun _ => Settles w₀) (fun _ => True) := by
      apply Triple.get_bind
      rw [hclient]
      dsimp only
      rw [hused.rx]
      cases rx with
      | raises f => exact Triple.raise (hused.settles (by simp) hclient)
      | missing => exact Triple.pure ⟨rfl, by simp⟩
      | found size => exact Triple.pure ⟨rfl, by simp⟩
    refine Triple.bind hrx fun size w₂ h₂ => ?_
    obtain ⟨rfl, hsize⟩ := h₂
    cases size with
    | none =>
      -- The only failure after which the link is closed.
      obtain rfl := hsize.mp rfl
      exact Triple.bind (hused.disconnect hclient) fun _ w₃ h₃ => Triple.raise h₃.settles
    | some size =>
      refine Triple.modify ⟨l, rx, ?_, hclient, fun hmissing => ?_⟩
      · exact hused.watches (Watches.congr rfl rfl rfl rfl rfl)
      · cases hsize.mpr hmissing
  · intro err w₁ h₁
    exact Triple.modify_bind (Triple.raise h₁)

/-! ## Both attempts -/

theorem Held.handshake (h : Held w₀ w) :
    Triple handshake w (fun _ => Completes w₀) (fun _ => Held w₀) (fun _ => True) := by
  refine (Watches.joins.handshake_ends w).mono ?_ ?_ (fun _ _ => trivial)
  · intro _ w' hended
    obtain ⟨w₁, hw₁, rfl⟩ := hended
    exact (h.watches hw₁).completes
  · intro e w' hw'
    exact h.watches hw'

theorem Held.connectAgain (h : Held w₀ w) :
    Triple connectAgain w (fun _ => Completes w₀) (fun _ => Settles w₀) (fun _ => True) := by
  obtain ⟨l, rx, hused, hclient, _⟩ := h
  refine Triple.bind (hused.disconnect hclient) fun _ w₁ h₁ => ?_
  refine Triple.bind h₁.toFree.connectTransport fun _ w₂ h₂ => ?_
  exact h₂.handshake.mono (fun _ _ h' => h') (fun _ _ h' => h'.settles) (fun _ h' => h')

theorem Free.connect (h : Free w₀ w) :
    Triple connect w (fun _ => Completes w₀) (fun _ => Settles w₀) (fun _ => True) := by
  refine connect_triple (A := Held w₀) (B := Held w₀) h.connectTransport ?_
    fun w' hw' => hw'.connectAgain
  intro w₁ h₁
  apply h₁.handshake.mono_raised
  intro e w₂ h₂
  split
  · -- The first attempt failed, and its link is still held.
    exact h₂.watches (Watches.discarded w₂)
  · exact h₂.settles

end Calls

/-! ## The handshakes that are complete -/

/-- The serial number was read over the links whose handshakes are complete, and
    over no others; there was no handshake over a link that is not there yet. -/
structure Verifies (w₀ w : World κ) : Prop where
  trace : w₀.trace <:+ w.trace
  known : ∀ o ∈ w₀.newTrace w, ∀ m, o.verdictOn = some m → m < w.opened
  agree : HandshakesRead w₀ w

section Verifies

variable {w₀ w w' : World κ} {l : Nat}

theorem Verifies.refl (w : World κ) : Verifies w w := by
  have hnone := w.newTrace_self
  refine ⟨List.suffix_refl _, by simp [hnone], fun l => iff_of_false ?_ (by simp [hnone])⟩
  apply not_serialRead
  simp [AnsweredOver, hnone]

/-- Nothing is done that belongs to a handshake. -/
theorem Verifies.later (h : Verifies w₀ w) (hdoes : Does (·.verdictOn = none) w w')
    (hopened : w.opened ≤ w'.opened) : Verifies w₀ w' := by
  have hold : ∀ {o : Obs} {m : Nat}, o.verdictOn = some m →
      (o ∈ w₀.newTrace w' ↔ o ∈ w₀.newTrace w) := by
    intro o m hm
    rw [World.newTrace_trans h.trace hdoes.trace, List.mem_append]
    refine or_iff_right fun hlater => ?_
    rw [hdoes.noVerdict hlater] at hm
    cases hm
  refine ⟨h.trace.trans hdoes.trace, fun o ho m hm => ?_, fun m => ?_⟩
  · exact Nat.lt_of_lt_of_le (h.known o ((hold hm).mp ho) m hm) hopened
  · rw [hold (o := .handshaken (some m)) rfl, ← h.agree m]
    exact serialRead_congr fun q r i hq => hold (if_pos hq)

/-- A handshake over a link that had none. -/
theorem Verifies.judged (h : Verifies w₀ w) (hw : w.trace <:+ w'.trace)
    (hopened : w'.opened = w.opened) (hl : l < w.opened)
    (hfresh : ∀ o ∈ w₀.newTrace w, o.verdictOn ≠ some l) (hjudged : Judged w w' l) :
    Verifies w₀ w' := by
  have hmem : ∀ {o}, o ∈ w₀.newTrace w' ↔ o ∈ w.newTrace w' ∨ o ∈ w₀.newTrace w := by
    intro o
    rw [World.newTrace_trans h.trace hw, List.mem_append]
  refine ⟨h.trace.trans hw, fun o ho m hm => ?_, fun m => ?_⟩
  · rw [hopened]
    rcases hmem.mp ho with hlater | hearlier
    · rw [hjudged.only o hlater m hm]
      exact hl
    · exact h.known o hearlier m hm
  · by_cases hm : m = l
    · subst hm
      -- What is known about this link is from this handshake.
      have hnew : ∀ {o : Obs}, o.verdictOn = some m →
          (o ∈ w₀.newTrace w' ↔ o ∈ w.newTrace w') := fun ho =>
        hmem.trans (or_iff_left fun hearlier => hfresh _ hearlier ho)
      rw [hnew (o := .handshaken (some m)) rfl, ← hjudged.agree]
      exact serialRead_congr fun q r i hq => hnew (if_pos hq)
    · have hold : ∀ {o : Obs}, o.verdictOn = some m →
          (o ∈ w₀.newTrace w' ↔ o ∈ w₀.newTrace w) := fun ho =>
        hmem.trans (or_iff_right fun hlater => hm (hjudged.only _ hlater m ho))
      rw [hold (o := .handshaken (some m)) rfl, ← h.agree m]
      exact serialRead_congr fun q r i hq => hold (if_pos hq)

/-- The link that is opened next. -/
theorem Verifies.opened (h : Verifies w₀ w) (hopened : Opened w w') :
    Verifies w₀ w' ∧ ∀ l, w'.self.client = some l →
      l < w'.opened ∧ ∀ o ∈ w₀.newTrace w', o.verdictOn ≠ some l := by
  have hdoes : Does (·.verdictOn = none) w w' :=
    Does.of_deeds [_] hopened.transported.does.trace hopened.deeds (by simp [Obs.verdictOn])
  have hlater : w.opened < w'.opened := by
    rw [hopened.opened]
    exact Nat.lt_succ_self _
  refine ⟨h.later hdoes (Nat.le_of_lt hlater), fun l hl => ?_⟩
  obtain rfl := hopened.client l hl
  refine ⟨hlater, fun o ho hverdict => ?_⟩
  -- Nothing that was done since then tells of a handshake.
  rw [World.newTrace_trans h.trace hdoes.trace] at ho
  rcases List.mem_append.mp ho with hnew | hold
  · rw [hdoes.noVerdict hnew] at hverdict
    cases hverdict
  · exact Nat.lt_irrefl _ (h.known o hold _ hverdict)

/-- Opening and closing a link belong to no handshake. -/
theorem Does.noVerdicts (h : Does (·.isLinkDeed = true) w w') :
    Does (·.verdictOn = none) w w' := by
  apply h.mono
  intro o ho
  cases o <;> first | rfl | cases ho

variable [Cipher κ]

theorem Verifies.connectTransport (h : Verifies w₀ w) (hfree : Free w w) :
    Triple connectTransport w
      (fun _ w' => Held w w' ∧ Verifies w₀ w' ∧ ∀ l, w'.self.client = some l →
        l < w'.opened ∧ ∀ o ∈ w₀.newTrace w', o.verdictOn ≠ some l)
      (fun _ w' => HandshakesRead w₀ w') (fun _ => True) := by
  refine (hfree.connectTransport.and (connectTransport_ends w)).mono ?_ ?_ (fun _ _ => trivial)
  · intro _ w' h'
    exact ⟨h'.1, h.opened h'.2⟩
  · intro e w' h'
    have htransported := h'.2.2
    refine (h.later htransported.does.noVerdicts ?_).agree
    rcases htransported.opened with hsame | hnext
    · exact Nat.le_of_eq hsame.symm
    · rw [hnext]
      exact Nat.le_succ _

theorem Held.verifies {w₁ : World κ} (h : Held w₁ w) (hverifies : Verifies w₀ w)
    (hfresh : ∀ l, w.self.client = some l →
      l < w.opened ∧ ∀ o ∈ w₀.newTrace w, o.verdictOn ≠ some l) :
    Triple Ninebot.handshake w (fun _ => Verifies w₀)
      (fun _ w' => Held w₁ w' ∧ Verifies w₀ w') (fun _ => True) := by
  obtain ⟨l, rx, hused, hclient, _⟩ := id h
  obtain ⟨hl, hunread⟩ := hfresh l hclient
  refine ((Watches.joins.handshake_ends w).and (handshake_judged w l)).mono ?_ ?_
    (fun _ _ => trivial)
  · intro _ w' h'
    obtain ⟨⟨w₂, hw, rfl⟩, hjudged⟩ := h'
    have hkept : w₂.self.client = some l := (hw.alone hused.alone).2.trans hclient
    exact hverifies.judged (hw.trace.trans (List.suffix_cons _ _)) hw.opened hl hunread
      (hjudged hkept)
  · intro e w' h'
    obtain ⟨hw, hjudged⟩ := h'
    have hkept : w'.self.client = some l := (hw.alone hused.alone).2.trans hclient
    exact ⟨h.watches hw, hverifies.judged hw.trace hw.opened hl hunread (hjudged hkept)⟩

theorem Held.verifiesAgain {w₁ : World κ} (h : Held w₁ w) (hverifies : Verifies w₀ w) :
    Triple Ninebot.connectAgain w (fun _ => HandshakesRead w₀) (fun _ => HandshakesRead w₀)
      (fun _ => True) := by
  obtain ⟨l, rx, hused, hclient, _⟩ := h
  have hclosed : ∀ {w'}, SameSession w w' → Does (·.isLinkDeed = true) w w' → Verifies w₀ w' := by
    intro w' hs hdoes
    have hopened : w'.opened = w.opened := congrArg Session.opened hs.session
    exact hverifies.later hdoes.noVerdicts (Nat.le_of_eq hopened.symm)
  refine Triple.bind (((hused.disconnect hclient).and ((disconnect_sameSession.triple w).and
    (disconnect_linkDeeds.triple w))).mono (fun _ _ h' => h') ?_ fun _ _ => trivial) ?_
  · intro e w' h'
    exact (hclosed h'.2.1 h'.2.2).agree
  · intro _ w' h'
    obtain ⟨htorn, hs, hdoes⟩ := h'
    have hfree : Free w' w' := Free.refl htorn.numbered htorn.closed htorn.alone
    refine Triple.bind ((hclosed hs hdoes).connectTransport hfree) fun _ w₂ h₂ => ?_
    obtain ⟨hheld, hverifies₂, hfresh⟩ := h₂
    exact (hheld.verifies hverifies₂ hfresh).mono (fun _ _ h₃ => h₃.agree)
      (fun _ _ h₃ => h₃.2.agree) fun _ h₃ => h₃

/-- The handshakes of a `connect` are complete over the links that the serial
    number was read over. -/
theorem Free.handshakesRead (h : Free w w) :
    Triple Ninebot.connect w (fun _ => HandshakesRead w) (fun _ => HandshakesRead w)
      (fun _ => True) := by
  refine connect_triple (B := fun w' => Held w w' ∧ Verifies w w')
    ((Verifies.refl w).connectTransport h) ?_ fun w' hw' => hw'.1.verifiesAgain hw'.2
  intro w₁ h₁
  obtain ⟨hheld, hverifies, hfresh⟩ := h₁
  refine (hheld.verifies hverifies hfresh).mono (fun _ _ h₂ => h₂.agree) ?_ (fun _ h₂ => h₂)
  intro e w₂ h₂
  obtain ⟨hheld₂, hverifies₂⟩ := h₂
  split
  · -- To draw a key is not to handshake.
    have hdoes : Does (·.verdictOn = none) w₂ w₂.discarded :=
      World.discarded_of (fun w _ => Does.log w fun _ => rfl)
        (fun _ _ => Does.of_same (List.suffix_refl _) rfl) w₂
    exact ⟨hheld₂.watches (Watches.discarded w₂), hverifies₂.later hdoes (Nat.le_refl _)⟩
  · exact hverifies₂.agree

/-- In every run that no other task disturbs and in which bleak's
    `disconnect()` closes its link, a `connect` that ends is all or nothing
    exactly if its awaited calls end in order. -/
theorem connect_allOrNothing_iff (hnumbered : w.Numbered) (hclosed : w.isConnected = false)
    (halone : w.alone = true) (hcloses : DisconnectCloses w (connect w).2)
    (hended : (connect w).1 ≠ .pending) :
    AllOrNothing w (connect w).1 (connect w).2 ↔ EndsInOrder w (connect w).2 := by
  have hfree : Free w w := Free.refl hnumbered hclosed halone
  have hresult := Triple.iff_result (P := fun res w' => res ≠ .pending → DisconnectCloses w w' →
    (AllOrNothing w res w' ↔ EndsInOrder w w')) (m := connect) (s := w)
  refine hresult.mp ((hfree.connect.and hfree.handshakesRead).mono ?_ ?_ ?_) hended hcloses
  · exact fun _ _ h _ hcloses' => h.1 hcloses' h.2
  · exact fun e _ h _ hcloses' => h.1 e hcloses' h.2
  · exact fun _ _ hpending _ => absurd rfl hpending

end Verifies

/-! ## Four calls -/

/-- The link has no RX characteristic, and is closed again. -/
def withoutRx : World StubCrypto :=
  World.ofScript (fakeClient none)
    [.answer (.linked .missing), .answer .ok, .answer .ok, .answer .ok]

/-- `start_notify` raises on the link. -/
def unsubscribed : World StubCrypto :=
  World.ofScript (fakeClient none) [.answer (.linked (.found 20)), .answer (.fail linkFault)]

/-- The same, after the link has gone down. -/
def unsubscribedLost : World StubCrypto :=
  World.ofScript (fakeClient none)
    [.answer (.linked (.found 20)), .event (.linkLost 0), .answer (.fail linkFault)]

/-- INIT is never answered. -/
def unanswered : World StubCrypto :=
  World.ofScript (fakeClient none) [.answer (.linked (.found 20)), .answer .ok,
    .answer .ok, .event (.tick 5000), .answer (.fail timerFault)]

theorem withoutRx_closed :
    AllOrNothing withoutRx (connect withoutRx).1 (connect withoutRx).2 ↔
      EndsInOrder withoutRx (connect withoutRx).2 := by
  have htrace : withoutRx.newTrace (connect withoutRx).2 =
      [.disconnected 0, .disconnecting 0, .opened 0, .cleared] := by
    decide +kernel
  have hcloses : DisconnectCloses withoutRx (connect withoutRx).2 := by
    intro l hl
    rw [htrace] at hl
    simp at hl
  exact connect_allOrNothing_iff (fun _ _ => rfl) rfl rfl hcloses (by decide +kernel)

/-- After `start_notify` has raised, the client does not know the link, which is
    open, or was dropped though it is down; after a request of the handshake
    has raised, the client still holds an open link. -/
theorem failedCalls_leaveLink :
    ((connect unsubscribed).1 =
        .raised ⟨.ninebotConnectionError, "Could not connect: Not connected"⟩ ∧
      (connect unsubscribed).2.self.client = none ∧ (connect unsubscribed).2.isUp 0 = true ∧
      ¬ AllOrNothing unsubscribed (connect unsubscribed).1 (connect unsubscribed).2) ∧
    ((connect unsubscribedLost).2.isUp 0 = false ∧
      ¬ AllOrNothing unsubscribedLost (connect unsubscribedLost).1
        (connect unsubscribedLost).2) ∧
    (connect unanswered).1 =
        .raised ⟨.ninebotTimeoutError, "Timed out waiting for a response"⟩ ∧
      (connect unanswered).2.isConnected = true ∧
      ¬ AllOrNothing unanswered (connect unanswered).1 (connect unanswered).2 := by
  have hraised : (connect unsubscribed).1 =
      .raised ⟨.ninebotConnectionError, "Could not connect: Not connected"⟩ := by decide +kernel
  have hlost : (connect unsubscribedLost).1 =
      .raised ⟨.ninebotConnectionError, "Could not connect: Not connected"⟩ := by decide +kernel
  have hraised' : (connect unanswered).1 =
      .raised ⟨.ninebotTimeoutError, "Timed out waiting for a response"⟩ := by decide +kernel
  refine ⟨⟨hraised, by decide +kernel, by decide +kernel, ?_⟩, ⟨by decide +kernel, ?_⟩, hraised',
    by decide +kernel, ?_⟩
  · rw [hraised]
    intro hall
    have hdown : (connect unsubscribed).2.isUp 0 = false :=
      hall.2.1 0 (Nat.zero_le 0) (by decide +kernel) (by simp)
    exact absurd hdown (by decide +kernel)
  · rw [hlost]
    intro hall
    have hleft : .disconnecting 0 ∈ unsubscribedLost.newTrace (connect unsubscribedLost).2 :=
      hall.2.2 0 (Nat.zero_le 0) (by decide +kernel) (by decide +kernel)
    exact absurd hleft (by decide +kernel)
  · rw [hraised']
    intro hall
    exact absurd hall.1 (by decide +kernel)

end Ninebot
