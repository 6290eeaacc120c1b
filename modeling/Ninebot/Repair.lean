import Ninebot.Backlog
import Ninebot.Links
import Ninebot.Verification

/-! # Re-pairing

    `connect` gives a stored key up after an authentication error of the first
    handshake.  With a scooter that answers INIT and PING but nothing under the
    session key, only the verification can raise one, and the client comes to
    the verification only when the closing PAIR before it has an answer.

    This file defines:
    - `Cooperates`: nothing goes wrong before the session key is used
    - `Unverified`: the closing PAIR was answered, the serial number was not
    - `Repaired`: a second handshake has offered a fresh key -/

namespace Ninebot

open Coro

variable {κ : Type}

/-! ## The scooter -/

/-- A call on a link raised. -/
def Obs.isFailure : Obs → Bool
  | .notOpened | .notifyFailed .. | .writeFailed _ | .sendFailed _ => true
  | .stopFailed .. | .disconnectFailed _ => true
  | _ => false

/-- INIT or a PING with `key` was not answered as by a scooter that has paired
    with this key. -/
def Obs.isRebuff (key : Bytes) : Obs → Bool
  | .unanswered _ q => q = initRequest ∨ q = pingRequest key
  | .answered _ q r _ =>
      (q = initRequest ∧ r.data.length < appKeyLength) ∨ (q = pingRequest key ∧ r.index = 0)
  | _ => false

def RxChar.isFound : RxChar → Bool
  | .found _ => true
  | _ => false

/-- From `w₀` to `w` the links worked, and the scooter answered INIT with a key
    and PING as if it were paired.  Nothing is said about the frames under the
    session key. -/
structure Cooperates (w₀ w : World κ) : Prop where
  /-- The stored key fits into a PING. -/
  fits : w₀.self.appKey.length ≤ maxDataLength
  calls : ∀ o ∈ w₀.newTrace w, o.isFailure = false
  rx : ∀ l, w₀.opened ≤ l → l < w.opened → (w.links l).rx.isFound = true
  answers : ∀ o ∈ w₀.newTrace w, o.isRebuff w₀.self.appKey = false

/-- The moments of a `connect` from `w` to `w'` before it opened a second link. -/
def Early (w w' : World κ) (moment : List Obs) : Prop :=
  ∃ new, moment = new ++ .cleared :: w.trace ∧ moment <:+ w'.trace ∧
    .opened (w.opened + 1) ∉ new

/-- The closing PAIR had an answer, but the serial number had none: neither one
    for all of it nor one for each of its words. -/
def Unverified (answered : Packet → Packet → Prop) : Prop :=
  (∃ challenge r, answered (pairRequest challenge) r) ∧ ¬ SerialRead answered

theorem Unverified.congr {answered answered' : Packet → Packet → Prop}
    (h : ∀ q r, answered q r ↔ answered' q r) : Unverified answered ↔ Unverified answered' := by
  rw [Unverified, Unverified, SerialRead.congr fun q r _ => h q r]
  simp only [h]

/-- The key has been discarded, and the handshake on the second link has
    offered a fresh one. -/
structure Repaired (w w' : World κ) : Prop where
  discarded : w'.self.appKeyWasSupplied = false
  fresh : w'.self.appKey = (w.secrets w.drawn).1
  offered : ∃ t keys,
    .sent t (w.opened + 1) keys (pingRequest (w.secrets w.drawn).1) ∈ w.newTrace w'

/-! ## Going on -/

/-- A later moment, whatever was done. -/
structure Onward (w w' : World κ) : Prop where
  trace : w.trace <:+ w'.trace
  opened : w.opened ≤ w'.opened
  rx : ∀ l < w.opened, (w'.links l).rx = (w.links l).rx
  alone : w.alone = true → w'.alone = true

namespace Onward

variable {w w' w'' : World κ}

theorem of_watches (h : Watches w w') : Onward w w' :=
  ⟨h.trace, Nat.le_of_eq h.opened.symm, fun l _ => h.rx l, fun halone => (h.alone halone).1⟩

theorem refl (w : World κ) : Onward w w := of_watches (Watches.refl w)

theorem trans (h : Onward w w') (h' : Onward w' w'') : Onward w w'' := by
  refine ⟨h.trace.trans h'.trace, h.opened.trans h'.opened, fun l hl => ?_,
    fun halone => h'.alone (h.alone halone)⟩
  rw [h'.rx l (Nat.lt_of_lt_of_le hl h.opened)]
  exact h.rx l hl

instance : Std.Refl (Onward (κ := κ)) := ⟨refl⟩

instance : IsTrans (World κ) Onward := ⟨fun _ _ _ => trans⟩

theorem log (w : World κ) (o : Obs) : Onward w (w.log o) :=
  ⟨List.suffix_cons _ _, Nat.le_refl _, fun _ _ => rfl, id⟩

theorem setClient (w : World κ) (c : Option Nat) : Onward w (w.setClient c) :=
  ⟨List.suffix_refl _, Nat.le_refl _, fun _ _ => rfl, id⟩

theorem linked (w : World κ) (rx : RxChar) : Onward w (w.linked rx) := by
  refine ⟨List.suffix_cons _ _, Nat.le_succ _, fun l hl => ?_, id⟩
  have hother : l ≠ w.opened := Nat.ne_of_lt hl
  simp [World.linked, World.log, World.setLink, hother]

theorem close (w : World κ) (l : Nat) : Onward w ((w.close l).log (.disconnected l)) := by
  refine ⟨List.suffix_cons _ _, Nat.le_refl _, fun m _ => ?_, id⟩
  by_cases hm : m = l
  · simp [World.close, World.log, World.setLink, hm]
  · simp [World.close, World.log, World.setLink, hm]

variable [Cipher κ]

theorem waits : Waits (Onward (κ := κ)) where
  event e w he := of_watches (Watches.apply e w he)
  script w _ h := of_watches (Watches.setScript w h)
  note w o _ _ _ := log w o
  take h := of_watches (Watches.asks.take h)

theorem connects : Connects (Onward (κ := κ)) where
  toWaits := waits
  deed w o _ := log w o
  reset w := of_watches (Watches.reset w)
  linked := linked
  client := setClient
  subscribe w l on := of_watches (Watches.subscribe w l on)
  close := close
  chunkSize _ _ := of_watches (Watches.congr rfl rfl rfl rfl rfl)

theorem greets : Greets (Onward (κ := κ)) where
  init w := of_watches (Watches.joins.init w)
  ping w := of_watches (Watches.joins.ping w)
  wait w := of_watches (Watches.joins.wait w)
  hear w := of_watches (Watches.joins.hear w)
  pair w h := of_watches (Watches.joins.pair w h)
  read w := of_watches (Watches.joins.read w)
  bleData w init := of_watches (Watches.joins.bleData w init)
  appData w := of_watches (Watches.joins.appData w)
  say w text := of_watches (Watches.joins.say w text)
  done w _ := log w _

theorem requests (p : Packet) : Moves Onward (Ninebot.request p : M κ Packet) := fun w =>
  of_watches (Watches.asks.request p none w)

theorem awaits : Moves Onward (awaitPairing : M κ Unit) := by
  intro w
  refine Triple.iff_last.mp (awaitPairing_keeps (I := Onward w) (refl w)
    (fun w' text h => h.trans (greets.say w' text)) ?_ (fun w' h => h.trans (greets.hear w'))
    (fun _ h => h) fun _ h => h)
  intro w' h
  exact Triple.of_last (h.trans (greets.wait w'))

theorem verifies : Moves Onward (verifySession : M κ Unit) := by
  refine Moves.bind (Moves.attempt greets.read) fun out => ?_
  cases out with
  | ok _ => exact Moves.pure ()
  | error err => exact Moves.raise _

omit [Cipher κ] in
theorem discarded (w : World κ) : Onward w w.discarded := of_watches (Watches.discarded w)

end Onward

/-- Since `w₀` something has gone wrong that has nothing to do with the session key. -/
structure Amiss (key : Bytes) (w₀ w : World κ) : Prop where
  onward : Onward w₀ w
  what : (∃ o ∈ w₀.newTrace w, o.isFailure = true ∨ o.isRebuff key = true) ∨
    ∃ l, w₀.opened ≤ l ∧ l < w.opened ∧ (w.links l).rx.isFound = false

section Amiss

variable {key : Bytes} {w₀ w w' : World κ}

theorem Cooperates.not_amiss (h : Cooperates w₀ w) : ¬ Amiss w₀.self.appKey w₀ w := by
  intro hamiss
  rcases hamiss.what with ⟨o, ho, hfailed | hrebuff⟩ | ⟨l, hle, hlt, hrx⟩
  · exact absurd hfailed (by simp [h.calls o ho])
  · exact absurd hrebuff (by simp [h.answers o ho])
  · exact absurd hrx (by simp [h.rx l hle hlt])

/-- What has gone wrong stays so. -/
theorem Amiss.later (h : Amiss key w₀ w) (ho : Onward w w') : Amiss key w₀ w' := by
  refine ⟨h.onward.trans ho, ?_⟩
  rcases h.what with ⟨o, hmem, hbad⟩ | ⟨l, hle, hlt, hrx⟩
  · refine Or.inl ⟨o, ?_, hbad⟩
    rw [World.newTrace_trans h.onward.trace ho.trace]
    exact List.mem_append_right _ hmem
  · refine Or.inr ⟨l, hle, Nat.lt_of_lt_of_le hlt ho.opened, ?_⟩
    rwa [ho.rx l hlt]

theorem Amiss.earlier {w₁ : World κ} (ho : Onward w₀ w₁) (h : Amiss key w₁ w) :
    Amiss key w₀ w := by
  refine ⟨ho.trans h.onward, ?_⟩
  rcases h.what with ⟨o, hmem, hbad⟩ | ⟨l, hle, hlt, hrx⟩
  · refine Or.inl ⟨o, ?_, hbad⟩
    rw [World.newTrace_trans ho.trace h.onward.trace]
    exact List.mem_append_left _ hmem
  · exact Or.inr ⟨l, Nat.le_trans ho.opened hle, hlt, hrx⟩

/-- The entry was made since `w`. -/
theorem Amiss.of_entry (ho : Onward w₀ w) (hw : Onward w w') {o : Obs} {older : List Obs}
    (htrace : w'.trace = o :: older) (holder : w.trace <:+ older)
    (hbad : o.isFailure = true ∨ o.isRebuff key = true) : Amiss key w₀ w' := by
  refine Amiss.earlier ho ⟨hw, Or.inl ⟨o, ?_, hbad⟩⟩
  obtain ⟨new, rfl⟩ := holder
  have hnew : w.newTrace w' = o :: new := World.newTrace_eq htrace
  rw [hnew]
  exact List.mem_cons_self

/-- Whatever is done then. -/
theorem Amiss.triple {α : Type} {m : M κ α} (h : Amiss key w₀ w) (hm : Moves Onward m) :
    Triple m w (fun _ => Amiss key w₀) (fun _ => Amiss key w₀) (Amiss key w₀) :=
  Triple.of_last (h.later (hm w))

end Amiss

/-! ## The first link -/

/-- Observations that are about no request. -/
def Obs.isAside : Obs → Bool
  | .sent .. | .unanswered .. => false
  | _ => true

theorem awaited_aside {o : Obs} (ho : o.isAside = true) {now : List Obs}
    (h : awaited now = none) : awaited (o :: now) = none := by
  cases o
  case sent => cases ho
  case taken s l p i =>
    show (awaited now).filter _ = none
    rw [h]
    rfl
  all_goals first | exact h | rfl

theorem awaited_asides {new now : List Obs} (hnew : ∀ o ∈ new, o.isAside = true)
    (h : awaited now = none) : awaited (new ++ now) = none := by
  induction new with
  | nil => exact h
  | cons o new ih =>
    have hrest := ih fun x hx => hnew x (List.mem_cons_of_mem _ hx)
    exact awaited_aside (hnew o List.mem_cons_self) hrest

theorem Ledger.aside {base now : List Obs} {done : Done} (h : Ledger base now done)
    (new : List Obs) (hnew : ∀ o ∈ new, o.isAside = true) : Ledger base (new ++ now) done := by
  induction new with
  | nil => exact h
  | cons o new ih =>
    have hold := ih fun x hx => hnew x (List.mem_cons_of_mem _ hx)
    have ho := hnew o List.mem_cons_self
    exact hold.quiet (awaited_aside ho hold.idle) (by rintro c q rfl; cases ho)

/-- Something is waited for at this moment, or has just been given up. -/
def Telling (moment : List Obs) : Prop :=
  awaited moment ≠ none ∨ ∃ c q older, moment = .unanswered c q :: older

/-- No such moment is among the asides. -/
theorem Telling.before {moment now : List Obs} (h : Telling moment) (hidle : awaited now = none)
    {new : List Obs} (hnew : ∀ o ∈ new, o.isAside = true) (hm : moment <:+ new ++ now) :
    moment <:+ now := by
  induction new with
  | nil => exact hm
  | cons o new ih =>
    rcases List.suffix_cons_iff.mp hm with rfl | hold
    · -- An aside is neither a request nor the end of one.
      rcases h with hwaits | ⟨c, q, older, hhead⟩
      · exact absurd (awaited_asides hnew hidle) hwaits
      · have ho := hnew o List.mem_cons_self
        rw [(List.cons.inj hhead).1] at ho
        cases ho
    · exact ih (fun x hx => hnew x (List.mem_cons_of_mem _ hx)) hold

/-- A moment between two requests of a `connect` that began at `w₀`, not after
    its first handshake; `done` says what its requests were answered. -/
structure Stage (w₀ w : World κ) (done : Done) : Prop where
  onward : Onward w₀ w
  ledger : Ledger (.cleared :: w₀.trace) w.trace done
  once : (done.map Prod.fst).Nodup
  tallied : w.Tallied
  alone : w.alone = true
  session : w₀.session = { w.session with
    keys := w₀.session.keys, chunkSize := w₀.session.chunkSize,
    serialChallenge := w₀.session.serialChallenge, opened := w₀.opened }

/-- The client holds the first link that was opened. -/
structure Using (w₀ w : World κ) (done : Done) : Prop extends Stage w₀ w done where
  client : w.self.client = some w₀.opened
  opened : w.opened = w₀.opened + 1
  single : .opened (w₀.opened + 1) ∉ w₀.newTrace w

/-- A later moment of one call, with the same link. -/
structure Bides (w w' : World κ) : Prop where
  overhears : Overhears w w'
  watches : Watches w w'
  session : SameSession w w'

namespace Bides

variable {w w' w'' : World κ}

theorem refl (w : World κ) : Bides w w :=
  ⟨Overhears.refl w, Watches.refl w, SameSession.refl w⟩

theorem trans (h : Bides w w') (h' : Bides w' w'') : Bides w w'' :=
  ⟨h.overhears.trans h'.overhears, h.watches.trans h'.watches, h.session.trans h'.session⟩

instance : Std.Refl (Bides (κ := κ)) := ⟨refl⟩

instance : IsTrans (World κ) Bides := ⟨fun _ _ _ => trans⟩

theorem suspends [Cipher κ] : Suspends (Bides (κ := κ)) where
  event e w he := ⟨Overhears.suspends.event e w he, Watches.apply e w he, SameSession.apply e w⟩
  script w s h :=
    ⟨Overhears.suspends.script w s h, Watches.setScript w h, SameSession.setScript w s⟩
  note w o hplain hdeed hfate :=
    ⟨Overhears.suspends.note w o hplain hdeed hfate, Watches.log w hfate, SameSession.log w o⟩

end Bides

namespace Stage

variable {w₀ w w' : World κ} {done : Done}

theorem appKey (h : Stage w₀ w done) : w.self.appKey = w₀.self.appKey :=
  (congrArg Session.appKey h.session).symm

theorem appKeyWasSupplied (h : Stage w₀ w done) :
    w.self.appKeyWasSupplied = w₀.self.appKeyWasSupplied :=
  (congrArg Session.appKeyWasSupplied h.session).symm

/-- The next key has not been drawn yet. -/
theorem nextSecret (h : Stage w₀ w done) : w.secrets w.drawn = w₀.secrets w₀.drawn := by
  have hsecrets : w₀.secrets = w.secrets := congrArg Session.secrets h.session
  have hdrawn : w₀.drawn = w.drawn := congrArg Session.drawn h.session
  rw [hsecrets, hdrawn]

/-- No request is made twice. -/
theorem only (h : Stage w₀ w done) {q : Packet} {res res' : Option Packet} (hq : (q, res) ∈ done)
    (hq' : (q, res') ∈ done) : res = res' := by
  have hinj := List.inj_on_of_nodup_map h.once hq hq' rfl
  exact (Prod.mk.inj hinj).2

theorem begun (h : Stage w₀ w done) : (.cleared :: w₀.trace) <:+ w.trace := h.ledger.begun

theorem bides (h : Stage w₀ w done) (hb : Bides w w') : Stage w₀ w' done := by
  refine ⟨h.onward.trans (Onward.of_watches hb.watches), ?_, h.once, hb.overhears.keeps h.tallied,
    (hb.watches.alone h.alone).1, ?_⟩
  · rw [World.trace_eq_newTrace hb.watches.trace]
    refine h.ledger.aside _ fun o ho => ?_
    have hbackground := hb.overhears.background o ho
    cases o <;> first | rfl | cases hbackground
  · rw [hb.session.session]
    exact h.session

/-- Steps that change no more than the keys, the challenge or the chunk size. -/
theorem congr (h : Stage w₀ w done) (htrace : w'.trace = w.trace) (hopened : w'.opened = w.opened)
    (hlinks : w'.links = w.links) (hscript : w'.script = w.script)
    (hqueue : w'.self.responses = w.self.responses)
    (hsession : w.session = { w'.session with
      keys := w.session.keys, chunkSize := w.session.chunkSize,
      serialChallenge := w.session.serialChallenge }) : Stage w₀ w' done := by
  have honward : Onward w w' := by
    refine ⟨htrace ▸ List.suffix_refl _, Nat.le_of_eq hopened.symm, fun l _ => by rw [hlinks], ?_⟩
    intro halone
    rwa [World.alone, hscript]
  refine ⟨h.onward.trans honward, htrace ▸ h.ledger, h.once, (KeepsTally.congr htrace hqueue).keeps
    h.tallied, honward.alone h.alone, ?_⟩
  have hs := h.session
  rw [hsession] at hs
  exact hs

theorem log (h : Stage w₀ w done) {o : Obs} (hplain : o.isPlain = true)
    (haside : o.isAside = true) : Stage w₀ (w.log o) done :=
  ⟨h.onward.trans (Onward.log w o), h.ledger.aside [o] (by simpa using haside), h.once,
    (KeepsTally.log_plain w hplain).keeps h.tallied, h.alone, h.session⟩

end Stage

namespace Using

variable {w₀ w w' : World κ} {done : Done}

theorem bides (h : Using w₀ w done) (hb : Bides w w') : Using w₀ w' done := by
  refine ⟨h.toStage.bides hb, (hb.watches.alone h.alone).2.trans h.client,
    hb.watches.opened.trans h.opened, ?_⟩
  rw [hb.watches.mem_iff h.onward.trace rfl (by simp)]
  exact h.single

theorem congr (h : Using w₀ w done) (htrace : w'.trace = w.trace) (hopened : w'.opened = w.opened)
    (hlinks : w'.links = w.links) (hscript : w'.script = w.script)
    (hqueue : w'.self.responses = w.self.responses) (hclient : w'.self.client = w.self.client)
    (hsession : w.session = { w'.session with
      keys := w.session.keys, chunkSize := w.session.chunkSize,
      serialChallenge := w.session.serialChallenge }) : Using w₀ w' done := by
  refine ⟨h.toStage.congr htrace hopened hlinks hscript hqueue hsession, hclient.trans h.client,
    hopened.trans h.opened, ?_⟩
  rw [World.newTrace, htrace]
  exact h.single

theorem log (h : Using w₀ w done) {o : Obs} (hplain : o.isPlain = true)
    (haside : o.isAside = true) (hfresh : o ≠ .opened (w₀.opened + 1)) :
    Using w₀ (w.log o) done := by
  refine ⟨h.toStage.log hplain haside, h.client, h.opened, ?_⟩
  rw [World.mem_newTrace_log h.onward.trace]
  rintro (heq | hold)
  · exact hfresh heq.symm
  · exact h.single hold

variable {key : Bytes}

/-- A request that cannot be sent is amiss. -/
theorem of_sendFails (h : Using w₀ w done) {p : Packet} (hfits : p.data.length ≤ maxDataLength)
    {e : Exc}
    (hfails : SendFails Overhears w p e w') (hw : Watches w w') : Amiss key w₀ w' := by
  have hencrypted : ∀ {l state} {w₁ : World κ}, Overhears (w.encrypted l p state) w₁ →
      w.trace <:+ w₁.trace := fun hover => (List.suffix_cons _ _).trans hover.trace
  have hlast : ∀ {older o}, w'.trace = o :: older → w.trace <:+ older → o.isFailure = true →
      Amiss key w₀ w' := fun htrace holder hbad =>
    Amiss.of_entry h.onward (Onward.of_watches hw) htrace holder (Or.inl hbad)
  cases hfails with
  | down => exact hlast rfl (List.suffix_refl _) rfl
  | tooLong hp =>
    rw [Packet.pack_eq_ok.mpr ⟨hfits, rfl⟩] at hp
    cases hp
  | failed _ hwrite _ =>
    refine hlast rfl ?_ rfl
    cases hwrite with
    | unlinked hover _ => exact hencrypted hover
    | raised m hover => exact (hencrypted hover).trans (List.suffix_cons _ _)
  | foreign _ hwrite _ =>
    cases hwrite with
    | unlinked _ hnone =>
      -- Nobody else takes the link out of the client.
      have hclient := (hw.alone h.alone).2
      rw [hnone, h.client] at hclient
      cases hclient
    | raised m hover => exact hlast rfl (hencrypted hover) rfl

variable [Cipher κ]

/-- A request that was not made before: it is answered or given up, or something
    is amiss. -/
theorem request (h : Using w₀ w done) (key : Bytes) {p : Packet} (hfresh : p ∉ done.map Prod.fst)
    (hfits : p.data.length ≤ maxDataLength) :
    Triple (request p) w
      (fun r w' => Using w₀ w' ((p, some r) :: done) ∧ r.data.length ≤ maxDataLength ∧
        ((∃ c i, (Obs.answered c p r i).isRebuff key = true) → Amiss key w₀ w'))
      (fun e w' => Amiss key w₀ w' ∨ e.cls = .ninebotTimeoutError ∧
        Using w₀ w' ((p, none) :: done) ∧
        ((∃ c, (Obs.unanswered c p).isRebuff key = true) → Amiss key w₀ w'))
      (fun _ => True) := by
  have hkeeps : ∀ {w'}, Watches w w' ∧ SameSession w w' → w'.Tallied →
      ∀ {res}, Ledger (.cleared :: w₀.trace) w'.trace ((p, res) :: done) →
      Using w₀ w' ((p, res) :: done) := by
    intro w' hlater ht res hledger
    obtain ⟨hw, hs⟩ := hlater
    refine ⟨⟨h.onward.trans (Onward.of_watches hw), hledger, ?_, ht, (hw.alone h.alone).1, ?_⟩,
      (hw.alone h.alone).2.trans h.client, hw.opened.trans h.opened, ?_⟩
    · rw [List.map_cons, List.nodup_cons]
      exact ⟨hfresh, h.once⟩
    · rw [hs.session]
      exact h.session
    · rw [hw.mem_iff h.onward.trace rfl (by simp)]
      exact h.single
  have hlast : Triple (Ninebot.request p) w (fun _ w' => Watches w w' ∧ SameSession w w')
      (fun _ w' => Watches w w' ∧ SameSession w w') (fun w' => Watches w w' ∧ SameSession w w') :=
    Triple.of_last (I := fun w' => Watches w w' ∧ SameSession w w')
      ⟨Watches.asks.request p none w, SameSession.asks.request p none w⟩
  -- The ledger says what the request was answered, the rest has not moved.
  refine ((request_ledger hfresh h.ledger h.tallied none).and hlast).mono ?_ ?_ (fun _ _ => trivial)
  · intro r w' h'
    obtain ⟨⟨hledger, ht, hdata, c, i, older, htrace, holder⟩, hlater⟩ := h'
    refine ⟨hkeeps hlater ht hledger, hdata, fun hbad => ?_⟩
    obtain ⟨c', i', hbad⟩ := hbad
    exact Amiss.of_entry h.onward (Onward.of_watches hlater.1) htrace holder (Or.inr hbad)
  · intro e w' h'
    obtain ⟨hfails | ⟨hcls, hledger, ht, c, older, htrace, holder⟩, hlater⟩ := h'
    · exact Or.inl (h.of_sendFails hfits hfails hlater.1)
    · refine Or.inr ⟨hcls, hkeeps hlater ht hledger, fun hbad => ?_⟩
      obtain ⟨c', hbad⟩ := hbad
      exact Amiss.of_entry h.onward (Onward.of_watches hlater.1) htrace holder (Or.inr hbad)

end Using

section Transport

variable [Cipher κ] {key : Bytes} {w₀ w : World κ} {done : Done}

/-- The client holds the link that `establish_connection` has returned. -/
theorem Stage.linked {w₁ : World κ} (h : Stage w w₁ done) (hopened : w₁.opened = w.opened)
    (hsingle : .opened (w.opened + 1) ∉ w.newTrace w₁) (rx : RxChar) :
    Using w ((w₁.linked rx).setClient (some w₁.opened)) done := by
  have honward : Onward w₁ ((w₁.linked rx).setClient (some w₁.opened)) :=
    (Onward.linked w₁ rx).trans (Onward.setClient _ _)
  have htally : KeepsTally w₁ ((w₁.linked rx).setClient (some w₁.opened)) :=
    (KeepsTally.connects.linked w₁ rx).trans (KeepsTally.connects.client _ _)
  have hstage : Stage w ((w₁.linked rx).setClient (some w₁.opened)) done :=
    ⟨h.onward.trans honward, h.ledger.aside [_] (by simp [Obs.isAside]), h.once,
      htally.keeps h.tallied, h.alone, h.session⟩
  refine ⟨hstage, congrArg some hopened, congrArg (· + 1) hopened, ?_⟩
  show .opened (w.opened + 1) ∉ w.newTrace (w₁.linked rx)
  rw [World.mem_newTrace_cons h.onward.trace rfl]
  rintro (heq | hold)
  · have hnumber := Obs.opened.inj heq
    omega
  · exact hsingle hold

omit [Cipher κ] in
/-- A link without the characteristic is amiss. -/
theorem Using.getRxCharacteristic {w₁ : World κ} (h : Using w w₁ done) (key : Bytes) :
    Triple getRxCharacteristic w₁ (fun size w' => w' = w₁ ∧ (size = none → Amiss key w w₁))
      (fun _ => Amiss key w) (fun _ => True) := by
  have hnone : (w₁.links w.opened).rx.isFound = false → Amiss key w w₁ := by
    intro hrx
    have hlt : w.opened < w₁.opened := h.opened ▸ Nat.lt_succ_self _
    exact ⟨h.onward, Or.inr ⟨w.opened, Nat.le_refl _, hlt, hrx⟩⟩
  apply Triple.get_bind
  rw [h.client]
  dsimp only
  cases hlink : (w₁.links w.opened).rx with
  | raises f => exact Triple.raise (hnone (by rw [hlink]; rfl))
  | missing => exact Triple.pure ⟨rfl, fun _ => hnone (by rw [hlink]; rfl)⟩
  | found size => exact Triple.pure ⟨rfl, by simp⟩

/-- The first link is there, or something is amiss. -/
theorem connectTransport_using (key : Bytes) (halone : w.alone = true) :
    Triple connectTransport w (fun _ w' => Using w w' [])
      (fun _ => Amiss key w) (fun _ => True) := by
  have hreset : Stage w w.resetTransport [] := by
    refine ⟨Onward.of_watches (Watches.reset w), Ledger.start rfl (by simp), List.nodup_nil,
      KeepsTally.reset w, halone, rfl⟩
  -- Bad news that comes while the client waits for the link.
  have hnews : ∀ {w₁ w₂ : World κ} {o}, Onward w w₁ → Bides w₁ w₂ → o.isFailure = true →
      Amiss key w (w₂.log o) := fun h₁ hb hbad =>
    Amiss.of_entry (h₁.trans (Onward.of_watches hb.watches)) (Onward.log _ _) rfl
      (List.suffix_refl _) (Or.inl hbad)
  apply Triple.modify_bind
  refine Triple.attempt_bind (Q := fun _ w' => Using w w' [])
    (X := fun _ w' => Amiss key w (w'.setClient none)) ?_ ?_ ?_
  · refine Triple.bind ((Bides.suspends.establish w.resetTransport).mono (fun _ _ h => h) ?_
      fun _ _ => trivial) ?_
    · intro e w' hended
      obtain ⟨_, w₁, hb, rfl⟩ := hended
      have hamiss : Amiss key w (w₁.log .notOpened) := hnews hreset.onward hb rfl
      split
      · exact hamiss.later (Onward.setClient _ none)
      · exact hamiss
    · intro l w' hended
      obtain ⟨w₁, rx, hb, rfl, rfl⟩ := hended
      have hstage := hreset.bides hb
      -- No link is opened while the client waits for this one.
      have hsingle : .opened (w.opened + 1) ∉ w.newTrace w₁ := by
        rw [World.newTrace_trans w.resetTransport_suffix hb.watches.trace, List.mem_append]
        rintro (hwait | hclear)
        · have hbackground := hb.overhears.background _ hwait
          cases hbackground
        · have hcleared : w.newTrace w.resetTransport = [.cleared] := World.newTrace_eq rfl
          rw [hcleared] at hclear
          simp at hclear
      have hused := hstage.linked hb.watches.opened hsingle rx
      apply Triple.modify_bind
      apply Bides.suspends.call_triple
      · intro w₂ hb₂
        exact hused.bides (hb₂.trans ⟨Overhears.congr rfl rfl, Watches.subscribe w₂ _ true,
          SameSession.subscribe w₂ _ true⟩)
      · intro e w₂ hb₂
        have hamiss : Amiss key w (w₂.log (.notifyFailed w₁.opened e)) := hnews hused.onward hb₂ rfl
        split
        · exact hamiss.later (Onward.setClient _ none)
        · exact hamiss
  · intro _ w₁ h₁
    apply Triple.bind (h₁.getRxCharacteristic key)
    intro size w₂ h₂
    obtain ⟨rfl, hmissing⟩ := h₂
    cases size with
    | none =>
      refine Triple.bind (((hmissing rfl).triple Onward.connects.disconnect).mono (fun _ _ h => h)
        (fun _ _ h => h) fun _ _ => trivial) fun _ w₃ h₃ => ?_
      exact Triple.raise h₃
    | some size => exact Triple.modify (h₁.congr rfl rfl rfl rfl rfl rfl rfl)
  · intro err w₁ h₁
    exact Triple.modify_bind (Triple.raise h₁)

end Transport

/-! ## The verification -/

section Verify

variable [Cipher κ] {key : Bytes} {w₀ w : World κ} {done : Done}

/-- A READ that does not go amiss is answered or times out. -/
theorem Using.records (key : Bytes) (w₀ : World κ) :
    Records (fun done w => Using w₀ w done) (Amiss key w₀)
      (·.cls = .ninebotTimeoutError) where
  read _ hfits hfresh h := by
    refine (h.request key hfresh hfits).mono (fun _ _ h₁ => h₁.1) ?_ (fun _ _ => trivial)
    intro e w₁ h₁
    exact h₁.imp id fun hlate => ⟨hlate.1, hlate.2.1⟩
  failed w h := by
    have hwalk : Moves Onward (walkRegister serialNumber : M κ Bytes) :=
      Moves.bind (walk_moves (fun _ => Onward.requests _) _ _) fun _ => Moves.pure _
    exact h.later (hwalk w)

/-- The verification of a key whose closing PAIR was answered. -/
theorem Using.verifySession (h : Using w₀ w done) (key : Bytes)
    (hpaired : ∃ challenge r, (pairRequest challenge, some r) ∈ done)
    (hunread : ∀ q ∈ done.map Prod.fst, q.command ≠ .read) :
    Triple verifySession w
      (fun _ w' => Amiss key w₀ w' ∨
        ∃ done', Using w₀ w' done' ∧ ¬ Unverified fun q r => (q, some r) ∈ done')
      (fun e w' => Amiss key w₀ w' ∨ ∃ done', Using w₀ w' done' ∧
        e.isInstance [.ninebotAuthError] = true ∧ Unverified fun q r => (q, some r) ∈ done')
      (fun _ => True) := by
  -- A timeout is among the errors that become authentication errors.
  have hverdict : ∀ e : Exc, e.cls = .ninebotTimeoutError →
      if e.isInstance [.ninebotTimeoutError, .ninebotProtocolError] then
        (⟨.ninebotAuthError, "Session key rejected: " ++ e.msg⟩ : Exc).isInstance
          [.ninebotAuthError] = true
      else e.isInstance [.ninebotAuthError] = true := by
    rintro ⟨cls, msg⟩ (rfl : cls = _)
    rfl
  refine ((Using.records key w₀).verifySession h hunread hverdict).mono ?_ ?_
    (fun _ _ => trivial)
  · intro _ w' h'
    exact h'.imp id fun ⟨new, hused, hread⟩ => ⟨_, hused, fun hun => hun.2 hread⟩
  · intro e w' h'
    rcases h' with hamiss | ⟨hauth, new, hused, hnot⟩
    · exact Or.inl hamiss
    · obtain ⟨challenge, r, hr⟩ := hpaired
      exact Or.inr ⟨_, hused, hauth, ⟨challenge, r, List.mem_append_right new hr⟩, hnot⟩

end Verify

/-! ## The first handshake -/

/-- The link is in use, the challenge fits into a PAIR, and only requests like
    these were made. -/
structure Underway (P : Packet → Prop) (w₀ w : World κ) (done : Done) : Prop
    extends Using w₀ w done where
  only : ∀ q ∈ done.map Prod.fst, P q
  challenge : w.self.serialChallenge.length ≤ maxDataLength

section Handshake

variable [Cipher κ] {key : Bytes} {w₀ w : World κ} {done : Done} {P : Packet → Prop}

/-- INIT is answered with a key, or something is amiss. -/
theorem Using.init (h : Using w₀ w []) (key : Bytes) :
    Triple (Ninebot.request initRequest) w
      (fun r w' => if r.data.length < appKeyLength then Amiss key w₀ w'
        else ∃ done, Underway (· = initRequest) w₀ (w'.setBleData r.data) done)
      (fun _ => Amiss key w₀) (fun _ => True) := by
  refine (h.request key (by simp) (Nat.zero_le _)).mono ?_ ?_ (fun _ _ => trivial)
  · intro r w₁ h₁
    obtain ⟨hused, hdata, hbad⟩ := h₁
    split
    · next hshort => exact hbad ⟨none, 0, by simp [Obs.isRebuff, hshort]⟩
    · refine ⟨_, hused.congr rfl rfl rfl rfl rfl rfl rfl, by simp, ?_⟩
      show (r.data.drop appKeyLength).length ≤ maxDataLength
      rw [List.length_drop]
      omega
  · intro e w₁ h₁
    rcases h₁ with hamiss | ⟨_, _, hbad⟩
    · exact hamiss
    · exact hbad ⟨none, by simp [Obs.isRebuff]⟩

/-- One more request of the handshake. -/
theorem Underway.request (h : Underway P w₀ w done) (key : Bytes) {p : Packet} (hp : ¬ P p)
    (hfits : p.data.length ≤ maxDataLength) :
    Triple (Ninebot.request p) w
      (fun r w' => Underway (fun q => q = p ∨ P q) w₀ w' ((p, some r) :: done) ∧
        ((∃ c i, (Obs.answered c p r i).isRebuff key = true) → Amiss key w₀ w'))
      (fun e w' => Amiss key w₀ w' ∨ e.cls = .ninebotTimeoutError ∧
        Underway (fun q => q = p ∨ P q) w₀ w' ((p, none) :: done) ∧
        ((∃ c, (Obs.unanswered c p).isRebuff key = true) → Amiss key w₀ w'))
      (fun _ => True) := by
  have hfresh : p ∉ done.map Prod.fst := fun hmem => hp (h.only p hmem)
  have hasked : ∀ {w' res}, Using w₀ w' ((p, res) :: done) → SameSession w w' →
      Underway (fun q => q = p ∨ P q) w₀ w' ((p, res) :: done) := by
    intro w' res hused hs
    refine ⟨hused, fun q hq => ?_, ?_⟩
    · exact (List.mem_cons.mp hq).imp id fun hold => h.only q hold
    · have hsame : w'.self.serialChallenge = w.self.serialChallenge :=
        congrArg Session.serialChallenge hs.session
      rw [hsame]
      exact h.challenge
  refine ((h.toUsing.request key hfresh hfits).and
    ((SameSession.asks.request p none).triple w)).mono ?_ ?_ (fun _ _ => trivial)
  · intro r w' h'
    exact ⟨hasked h'.1.1 h'.2, h'.1.2.2⟩
  · intro e w' h'
    exact h'.1.imp id fun hlate => ⟨hlate.1, hasked hlate.2.1 h'.2, hlate.2.2⟩

/-- The closing PAIR.  When it is given up nothing is verified, but that is no
    authentication error: a timeout is none, whichever request it is about. -/
theorem Underway.pair (h : Underway P w₀ w done) (key : Bytes)
    (hunpaired : ∀ challenge, ¬ P (pairRequest challenge)) :
    Triple (Ninebot.request (pairRequest w.self.serialChallenge)) w
      (fun r w' => Underway (fun q => q = pairRequest w.self.serialChallenge ∨ P q) w₀ w'
        ((pairRequest w.self.serialChallenge, some r) :: done))
      (fun e w' => Amiss key w₀ w' ∨ ∃ done', Using w₀ w' done' ∧
        (e.isInstance [.ninebotAuthError] = true ↔ Unverified fun q r => (q, some r) ∈ done'))
      (fun _ => True) := by
  refine (h.request key (hunpaired _) h.challenge).mono (fun _ _ h₁ => h₁.1) ?_
    (fun _ _ => trivial)
  rintro ⟨cls, msg⟩ w₁ (hamiss | ⟨(rfl : cls = _), hpaired, _⟩)
  · exact Or.inl hamiss
  · have hunanswered : ¬ Unverified fun q r =>
        (q, some r) ∈ (pairRequest w.self.serialChallenge, none) :: done := by
      intro hun
      obtain ⟨challenge, r, hr⟩ := hun.1
      rcases List.mem_cons.mp hr with heq | hold
      · cases heq
      · exact hunpaired challenge (h.only _ (List.mem_map_of_mem hold))
    exact Or.inr ⟨_, hpaired.toUsing,
      iff_of_false (by simp [Exc.isInstance, ErrorClass.mro]) hunanswered⟩

/-- PING: it is answered as by a scooter that has paired, or something is amiss. -/
theorem Underway.ping (h : Underway (· = initRequest) w₀ w done) (key : Bytes)
    (hfits : key.length ≤ maxDataLength) :
    Triple (Ninebot.request (pingRequest key)) w
      (fun r w' => (r.index = 0 → Amiss key w₀ w') ∧
        Underway (fun q => q = pingRequest key ∨ q = initRequest) w₀ w'
          ((pingRequest key, some r) :: done))
      (fun _ => Amiss key w₀) (fun _ => True) := by
  refine (h.request key (by simp [pingRequest, initRequest]) hfits).mono ?_ ?_
    (fun _ _ => trivial)
  · intro r w₁ h₁
    exact ⟨fun hzero => h₁.2 ⟨none, 0, by simp [Obs.isRebuff, hzero]⟩, h₁.1⟩
  · intro e w₁ h₁
    rcases h₁ with hamiss | ⟨_, _, hbad⟩
    · exact hamiss
    · exact hbad ⟨none, by simp [Obs.isRebuff]⟩

/-- The first handshake: its error is an authentication error exactly if the
    closing PAIR was answered and the serial number was not. -/
theorem Using.handshake (h : Using w₀ w []) (hfits : w₀.self.appKey.length ≤ maxDataLength) :
    Triple handshake w
      (fun _ w' => Amiss w₀.self.appKey w₀ w' ∨ ∃ done, Using w₀ w' done ∧
        ¬ Unverified fun q r => (q, some r) ∈ done)
      (fun e w' => Amiss w₀.self.appKey w₀ w' ∨ ∃ done, Using w₀ w' done ∧
        (e.isInstance [.ninebotAuthError] = true ↔ Unverified fun q r => (q, some r) ∈ done))
      (fun _ => True) := by
  let key := w₀.self.appKey
  let greeting : Packet → Prop := fun q => q = pingRequest key ∨ q = initRequest
  refine handshake_triple
    (A := fun w' => ∃ done, Underway (· = initRequest) w₀ w' done)
    (B := Amiss key w₀)
    (D := fun w' => Amiss key w₀ w' ∨ ∃ done, Underway greeting w₀ w' done)
    (F := fun w' => Amiss key w₀ w' ∨ ∃ challenge done,
      Underway (fun q => q = pairRequest challenge ∨ greeting q) w₀ w' done ∧
        ∃ r, (pairRequest challenge, some r) ∈ done)
    ?_ ?_ ?_ ?_ ?_
  · refine (h.init key).mono ?_ (fun _ _ h₁ => Or.inl h₁) (fun _ h₁ => h₁)
    intro r w₁ h₁
    split
    · next hshort =>
      rw [if_pos hshort] at h₁
      exact Or.inl h₁
    · next hlong =>
      rwa [if_neg hlong] at h₁
  · intro w₁ h₁
    obtain ⟨done, hasked⟩ := h₁
    rw [hasked.appKey]
    refine (hasked.ping key hfits).mono ?_ (fun _ _ h₂ => Or.inl h₂) (fun _ _ => trivial)
    intro r w₂ h₂
    obtain ⟨hbad, hpinged⟩ := h₂
    split
    · next hzero => exact hbad hzero
    · exact Or.inr ⟨_, hpinged.congr rfl rfl rfl rfl rfl rfl rfl, hpinged.only, hpinged.challenge⟩
  · -- The client waits for the user of a scooter that is not paired.
    intro w₁ h₁
    exact (h₁.triple Onward.awaits).mono
      (fun _ w₂ h₂ => Or.inl (h₂.later (Onward.greets.appData w₂)))
      (fun _ _ h₂ => Or.inl h₂) fun _ _ => trivial
  · intro w₁ h₁
    rcases h₁ with hamiss | ⟨done, hasked⟩
    · exact (hamiss.triple (Onward.requests _)).mono (fun _ _ h₂ => Or.inl h₂)
        (fun _ _ h₂ => Or.inl h₂) fun _ _ => trivial
    · have hunpaired : ∀ challenge, ¬ greeting (pairRequest challenge) := by
        intro challenge
        simp [greeting, pairRequest, pingRequest, initRequest]
      refine (hasked.pair key hunpaired).mono ?_ (fun _ _ h₂ => h₂) (fun _ _ => trivial)
      intro r w₂ h₂
      exact Or.inr ⟨_, _, h₂, r, List.mem_cons_self⟩
  · -- The verification comes only after the closing PAIR was answered.
    intro w₁ h₁
    rcases h₁ with hamiss | ⟨challenge, done, hasked, r, hr⟩
    · exact (hamiss.triple Onward.verifies).mono
        (fun _ w₂ h₂ => Or.inl (h₂.later (Onward.log w₂ _)))
        (fun _ _ h₂ => Or.inl h₂) fun _ _ => trivial
    · refine (hasked.toUsing.verifySession key ⟨challenge, r, hr⟩ ?_).mono ?_ ?_
        (fun _ _ => trivial)
      · intro q hq
        rcases hasked.only q hq with rfl | rfl | rfl <;>
          simp [pairRequest, pingRequest, initRequest]
      · intro _ w₂ h₂
        rcases h₂ with hamiss | ⟨done', hused, hnot⟩
        · exact Or.inl (hamiss.later (Onward.log w₂ _))
        · exact Or.inr ⟨done', hused.log rfl rfl (by simp), hnot⟩
      · intro e w₂ h₂
        rcases h₂ with hamiss | ⟨done', hused, hauth, hun⟩
        · exact Or.inl hamiss
        · exact Or.inr ⟨done', hused, fun _ => hun, fun _ => hauth⟩

end Handshake

/-! ## Before the second link -/

/-- A statement about answers that came in time looks only at the moments at
    which something is waited for or has just been given up. -/
theorem inTime_congr {M M' : List Obs → Prop}
    (h : ∀ moment, Telling moment → (M moment ↔ M' moment)) (q r : Packet) :
    InTime M q r ↔ InTime M' q r := by
  have hgoes : ∀ {M M' : List Obs → Prop}, (∀ moment, Telling moment → (M moment ↔ M' moment)) →
      InTime M q r → InTime M' q r := by
    intro M M' h hin
    obtain ⟨⟨now, l, a, hnow, hl, hfirst, hr⟩, hkept⟩ := hin
    refine ⟨⟨now, l, a, (h now (Or.inl (by simp [hl]))).mp hnow, hl, hfirst, hr⟩,
      fun older c hold => ?_⟩
    exact hkept older c ((h _ (Or.inr ⟨c, q, older, rfl⟩)).mpr hold)
  exact ⟨hgoes h, hgoes fun moment ht => (h moment ht).symm⟩

/-- What the requests on the first link were answered, going by the whole run:
    after `w` there were only asides until it ended or the second link was opened. -/
theorem Using.early_iff {w₀ w w' : World κ} {done : Done} (gap : List Obs) (h : Using w₀ w done)
    (hgap : ∀ o ∈ gap, o.isAside = true) (hw : gap ++ w.trace <:+ w'.trace)
    (hlast : w'.trace = gap ++ w.trace ∨ .opened (w₀.opened + 1) ∈ gap) (q r : Packet) :
    InTime (Early w₀ w') q r ↔ (q, some r) ∈ done := by
  rw [← h.ledger.inTime q r]
  apply inTime_congr
  intro moment htelling
  constructor
  · rintro ⟨new, rfl, hsuffix, hsingle⟩
    refine ⟨List.suffix_append _ _, ?_⟩
    -- The second link is not there yet.
    have hbefore : new ++ .cleared :: w₀.trace <:+ gap ++ w.trace := by
      rcases hlast with heq | hopened
      · rwa [← heq]
      · refine (List.suffix_or_suffix_of_suffix hsuffix hw).resolve_right fun hlong => hsingle ?_
        obtain ⟨late, hlate⟩ := hlong
        obtain ⟨early, hearly⟩ := h.begun
        rw [← hearly, ← List.append_assoc, ← List.append_assoc] at hlate
        rw [← List.append_cancel_right hlate]
        simp [hopened]
    exact htelling.before h.ledger.idle hgap hbefore
  · -- While the first link is in use, every moment is an early one.
    intro hspan
    obtain ⟨⟨new, rfl⟩, rest, hrest⟩ := hspan
    refine ⟨new, rfl, ?_, fun hmem => h.single ?_⟩
    · exact List.IsSuffix.trans ⟨rest, hrest⟩ ((List.suffix_append _ _).trans hw)
    · have htrace : w.trace = (rest ++ new ++ [.cleared]) ++ w₀.trace := by
        rw [← hrest]
        simp
      rw [World.newTrace_eq htrace]
      simp [hmem]

/-! ## The second handshake -/

section Again

variable {key : Bytes} {w₀ w w' : World κ} {done : Done}

/-- A request whose packet can be packed has been sent, unless the link was down. -/
theorem RequestEnds.offered {p : Packet} {res : Res Exc Packet}
    (h : RequestEnds w p res w') (hw : w.trace <:+ w'.trace)
    (hfits : p.data.length ≤ maxDataLength) :
    .sendFailed p ∈ w.newTrace w' ∨ ∃ l, LinkUp w l ∧ w.sentObs l p ∈ w.newTrace w' := by
  have hmem : ∀ {o}, o ∈ w.newDeeds w' → o ∈ w.newTrace w' := fun ho =>
    ((World.mem_newDeeds_iff hw).mp ho).1
  have hsent : ∀ {l} (new : List Obs), LinkUp w l → w'.deeds = new ++ w.sentObs l p :: w.deeds →
      ∃ l, LinkUp w l ∧ w.sentObs l p ∈ w.newTrace w' := by
    intro l new hl hd
    refine ⟨l, hl, hmem ?_⟩
    rw [World.newDeeds_eq (new ++ [w.sentObs l p]) (by rw [hd]; simp)]
    simp
  cases h with
  | refused hsend =>
    cases hsend with
    | down _ _ hd =>
      refine Or.inl (hmem ?_)
      rw [World.newDeeds_eq [.sendFailed p] hd]
      exact List.mem_cons_self
    | tooLong hp _ =>
      rw [Packet.pack_eq_ok.mpr ⟨hfits, rfl⟩] at hp
      cases hp
    | failed hl _ hd => exact Or.inr (hsent [_] hl hd)
    | foreign hl _ hd => exact Or.inr (hsent [] hl hd)
  | waiting hl hd => exact Or.inr (hsent [] hl hd)
  | unanswered hl _ hd => exact Or.inr (hsent [_] hl hd)
  | answered hl _ _ hd => exact Or.inr (hsent [_] hl hd)

/-- The PING of the handshake on the first link has been sent, or something is amiss. -/
def Offers (key : Bytes) (w₀ w : World κ) : Prop :=
  Onward w₀ w ∧ (Amiss key w₀ w ∨
    ∃ t keys, .sent t w₀.opened keys (pingRequest w₀.self.appKey) ∈ w₀.newTrace w)

theorem Offers.later (h : Offers key w₀ w) (ho : Onward w w') : Offers key w₀ w' := by
  refine ⟨h.1.trans ho, h.2.imp (·.later ho) fun hsent => ?_⟩
  obtain ⟨t, keys, hmem⟩ := hsent
  rw [World.newTrace_trans h.1.trace ho.trace]
  exact ⟨t, keys, List.mem_append_right _ hmem⟩

theorem Offers.of_amiss (h : Amiss key w₀ w) : Offers key w₀ w := ⟨h.onward, Or.inl h⟩

theorem Offers.triple {α : Type} {m : M κ α} (h : Offers key w₀ w) (hm : Moves Onward m) :
    Triple m w (fun _ => Offers key w₀) (fun _ => Offers key w₀) (Offers key w₀) :=
  Triple.of_last (h.later (hm w))

variable [Cipher κ]

/-- Whatever comes of it, the handshake offers the client's key. -/
theorem Using.offers (h : Using w₀ w []) (key : Bytes)
    (hfits : w₀.self.appKey.length ≤ maxDataLength) :
    Triple Ninebot.handshake w (fun _ => Offers key w₀) (fun _ => Offers key w₀)
      (fun _ => True) := by
  refine handshake_triple (A := fun w' => ∃ done, Underway (· = initRequest) w₀ w' done)
    (B := Offers key w₀) (D := Offers key w₀) (F := Offers key w₀) ?_ ?_ ?_ ?_ ?_
  · refine (h.init key).mono ?_ (fun _ _ h₁ => Offers.of_amiss h₁) (fun _ h₁ => h₁)
    intro r w₁ h₁
    split
    · next hshort =>
      rw [if_pos hshort] at h₁
      exact Offers.of_amiss h₁
    · next hlong => rwa [if_neg hlong] at h₁
  · intro w₁ h₁
    obtain ⟨done, hasked⟩ := h₁
    rw [hasked.appKey]
    -- PING has left unless the link went down, and that is amiss.
    have hoffers : Offers key w₀ (Ninebot.request (pingRequest w₀.self.appKey) none w₁).2 := by
      have honward := Onward.requests (pingRequest w₀.self.appKey) w₁
      refine ⟨hasked.onward.trans honward, ?_⟩
      rcases (request_ends _ none w₁).offered honward.trace hfits with hfailed | ⟨l, hl, hsent⟩
      · exact Or.inl (Amiss.earlier hasked.onward ⟨honward, Or.inl ⟨_, hfailed, Or.inl rfl⟩⟩)
      · have hlink : l = w₀.opened := Option.some.inj (hl.client.symm.trans hasked.client)
        rw [World.newTrace_trans hasked.onward.trace honward.trace, ← hlink]
        exact Or.inr ⟨_, _, List.mem_append_left _ hsent⟩
    refine (Triple.of_last hoffers).mono ?_ (fun _ _ h₂ => h₂) fun _ _ => trivial
    intro r w₂ h₂
    split
    · exact h₂
    · exact h₂.later (Onward.greets.appData w₂)
  · intro w₁ h₁
    exact (h₁.triple Onward.awaits).mono (fun _ w₂ h₂ => h₂.later (Onward.greets.appData w₂))
      (fun _ _ h₂ => h₂) fun _ _ => trivial
  · intro w₁ h₁
    exact (h₁.triple (Onward.requests _)).mono (fun _ _ h₂ => h₂) (fun _ _ h₂ => h₂)
      fun _ _ => trivial
  · intro w₁ h₁
    exact (h₁.triple Onward.verifies).mono (fun _ w₂ h₂ => h₂.later (Onward.log w₂ _))
      (fun _ _ h₂ => h₂) fun _ _ => trivial

/-- `disconnect` raises only what a call on the link raises. -/
theorem disconnect_amiss (key : Bytes) (ho : Onward w₀ w) :
    Triple disconnect w (fun _ _ => True) (fun _ => Amiss key w₀) (fun _ => True) := by
  have hcall : ∀ (done : World κ → World κ) (note : Exc → Obs) {w₁ : World κ},
      (∀ e, (note e).isFailure = true) → (∀ w₂, Onward w₂ (done w₂)) → Onward w₀ w₁ →
      Triple (attempt (·.isInstance [.bleakError, .osError])
        (awaitCall done fun e w₂ => w₂.log (note e))) w₁
        (fun _ => Onward w₀) (fun _ => Amiss key w₀) (fun _ => True) := by
    intro done note w₁ hnote hdone h₁
    apply Onward.waits.attemptCall_triple
    · intro w₂ h₂
      exact h₁.trans (h₂.trans (hdone w₂))
    · intro e w₂ h₂ _
      exact h₁.trans (h₂.trans (Onward.log w₂ _))
    · intro e w₂ h₂ _
      exact Amiss.of_entry (h₁.trans h₂) (Onward.log w₂ _) rfl (List.suffix_refl _)
        (Or.inl (hnote e))
  refine Triple.get_bind (Triple.modify_bind ?_)
  cases w.self.client with
  | none => exact Triple.pure trivial
  | some l =>
    apply Triple.modify_bind
    have hbegun := ho.trans ((Onward.setClient w none).trans (Onward.log _ (.disconnecting l)))
    by_cases hup : w.isUp l
    · simp only [hup, if_true]
      refine Triple.bind (hcall _ _ (fun _ => rfl) (Onward.connects.subscribe · l false) hbegun)
        fun _ w₁ h₁ => ?_
      exact Triple.bind (hcall _ _ (fun _ => rfl) (Onward.close · l) h₁) fun _ _ _ =>
        Triple.pure trivial
    · simp only [hup]
      exact Triple.pure trivial

omit [Cipher κ] in
/-- Nothing that is said or done about a link is about a request. -/
theorem Does.asides {w w' : World κ} (h : Does (·.isLinkDeed = true) w w') :
    ∀ o ∈ w.newTrace w', o.isAside = true := by
  intro o ho
  by_cases hdeed : o.isDeed = true
  · have hlink := h.deeds o ((World.mem_newDeeds_iff h.trace).mpr ⟨ho, hdeed⟩)
    cases o <;> first | rfl | cases hlink
  · cases o <;> first | rfl | exact absurd rfl hdeed

/-- How a `connect` ends: something is amiss, or it has re-paired exactly if
    the verification was what failed. -/
def Decided (w₀ w : World κ) : Prop :=
  Amiss w₀.self.appKey w₀ w ∨ (Repaired w₀ w ↔ Unverified (InTime (Early w₀ w)))

omit [Cipher κ] in
/-- The first handshake was the only one, and the key is kept. -/
theorem Using.decided (h : Using w₀ w done) (hsupplied : w₀.self.appKeyWasSupplied = true)
    (hnot : ¬ Unverified fun q r => (q, some r) ∈ done) : Decided w₀ w := by
  refine Or.inr (iff_of_false (fun hrepaired => ?_) fun hun => hnot ?_)
  · have hkept := h.appKeyWasSupplied.trans hsupplied
    rw [hrepaired.discarded] at hkept
    cases hkept
  · have hearly := fun q r => h.early_iff [] (by simp) (List.suffix_refl _) (Or.inl rfl) q r
    exact (Unverified.congr hearly).mp hun

omit [Cipher κ] in
/-- Between the first link and the second there are only asides: the verification
    stays what failed. -/
theorem Using.unverified_later {w₂ w₃ : World κ} (h : Using w₀ w done)
    (hun : Unverified fun q r => (q, some r) ∈ done) (hw : w.trace <:+ w₂.trace)
    (hasides : ∀ o ∈ w.newTrace w₂, o.isAside = true)
    (hopened : .opened (w₀.opened + 1) ∈ w.newTrace w₂) (hlater : w₂.trace <:+ w₃.trace) :
    Unverified (InTime (Early w₀ w₃)) := by
  have htrace : w.newTrace w₂ ++ w.trace = w₂.trace := (World.trace_eq_newTrace hw).symm
  have hsuffix : w.newTrace w₂ ++ w.trace <:+ w₃.trace := htrace ▸ hlater
  have hearly := fun q r => h.early_iff (w.newTrace w₂) hasides hsuffix (Or.inr hopened) q r
  exact (Unverified.congr hearly).mpr hun

omit [Cipher κ] in
/-- What the client knows when it is about to open the second link. -/
theorem Using.forgets {w₁ : World κ} (h : Using w₀ w done) (hs : SameSession w.discarded w₁) :
    w₁.opened = w₀.opened + 1 ∧ w₁.self.appKey = (w₀.secrets w₀.drawn).1 ∧
      w₁.self.appKeyWasSupplied = false := by
  have hopened : w₁.opened = w.opened := congrArg Session.opened hs.session
  have hdrawn : w₁.self.appKey = (w.secrets w.drawn).1 := congrArg Session.appKey hs.session
  refine ⟨hopened.trans h.opened, ?_, congrArg Session.appKeyWasSupplied hs.session⟩
  rw [hdrawn, h.nextSecret]

/-- After the key was rejected, the client re-pairs. -/
theorem Using.connectAgain (h : Using w₀ w done)
    (hun : Unverified fun q r => (q, some r) ∈ done) :
    Triple connectAgain w.discarded (fun _ => Decided w₀) (fun _ => Decided w₀)
      (fun _ => True) := by
  let key := w₀.self.appKey
  have honward : Onward w₀ w.discarded := h.onward.trans (Onward.discarded w)
  have hdisconnect := ((disconnect_amiss key honward).and
    (Onward.connects.disconnect.triple w.discarded)).and
    ((disconnect_sameSession.triple w.discarded).and (disconnect_linkDeeds.triple w.discarded))
  -- The first link is closed, or a call on it raises.
  refine Triple.bind (hdisconnect.mono (fun _ _ h₁ => h₁) (fun _ _ h₁ => Or.inl h₁.1.1)
    fun _ _ => trivial) fun _ w₁ h₁ => ?_
  obtain ⟨⟨_, honward₁⟩, hsession₁, hdoes₁⟩ := h₁
  have halone₁ : w₁.alone = true := honward₁.alone (Onward.discarded w |>.alone h.alone)
  have hearlier : ∀ {w'}, Amiss key w₁ w' → Decided w₀ w' := fun hamiss =>
    Or.inl (Amiss.earlier (honward.trans honward₁) hamiss)
  -- The second link is opened as the first one was.
  refine Triple.bind (((connectTransport_using key halone₁).and
    (connectTransport_ends w₁)).mono (fun _ _ h₂ => h₂) (fun _ _ h₂ => hearlier h₂.1)
    fun _ _ => trivial) fun _ w₂ h₂ => ?_
  obtain ⟨hused₂, hopened₂⟩ := h₂
  obtain ⟨hopened, hfresh, hdiscarded⟩ := h.forgets hsession₁
  have hfits : w₁.self.appKey.length ≤ maxDataLength := by
    rw [hfresh, (w₀.secrets w₀.drawn).2]
    decide
  have hthere : Onward w w₁ := (Onward.discarded w).trans honward₁
  have hgap : w.newTrace w₂ =
      w₁.newTrace w₂ ++ (w.discarded.newTrace w₁ ++ w.newTrace w.discarded) := by
    rw [World.newTrace_trans hthere.trace hused₂.onward.trace,
      World.newTrace_trans (Onward.discarded w).trace honward₁.trace]
  have hasides : ∀ o ∈ w.newTrace w₂, o.isAside = true := by
    intro o ho
    rw [hgap] at ho
    rcases List.mem_append.mp ho with hlink | hrest
    · exact hopened₂.transported.does.asides o hlink
    · rcases List.mem_append.mp hrest with hlink | hinfo
      · exact hdoes₁.asides o hlink
      · -- The line of the log that says that the key is given up.
        have hsaid : w.newTrace w.discarded = [_] :=
          World.newTrace_eq (List.singleton_append ..)
        rw [hsaid, List.mem_singleton] at hinfo
        rw [hinfo]
        rfl
  have hsecond : .opened (w₀.opened + 1) ∈ w.newTrace w₂ := by
    have hdeeds : .opened w₁.opened ∈ w₁.newDeeds w₂ := by
      rw [World.newDeeds_eq [_] hopened₂.deeds]
      exact List.mem_cons_self
    rw [hgap, ← hopened]
    exact List.mem_append_left _ ((World.mem_newDeeds_iff hused₂.onward.trace).mp hdeeds).1
  -- However the second handshake ends, it has offered the fresh key.
  have hdecided : ∀ {w₃ : World κ}, Offers key w₁ w₃ ∧ SameLink w₂ w₃ → Decided w₀ w₃ := by
    intro w₃ h₃
    obtain ⟨⟨honward₃, hamiss | ⟨t, keys, hsent⟩⟩, hlink⟩ := h₃
    · exact hearlier hamiss
    · have hlater := (hthere.trans hused₂.onward).trace
      refine Or.inr (iff_of_true ⟨?_, ?_, t, keys, ?_⟩
        (h.unverified_later hun hlater hasides hsecond hlink.trace))
      · exact hlink.appKeyWasSupplied.trans (hused₂.appKeyWasSupplied.trans hdiscarded)
      · exact hlink.appKey.trans (hused₂.appKey.trans hfresh)
      · rw [hfresh, hopened] at hsent
        rw [World.newTrace_trans (honward.trans honward₁).trace honward₃.trace]
        exact List.mem_append_left _ hsent
  exact ((hused₂.offers key hfits).and (SameLink.greets.handshake.triple w₂)).mono
    (fun _ _ h₃ => hdecided h₃) (fun _ _ h₃ => hdecided h₃) fun _ _ => trivial

/-- For every scooter that answers INIT and PING, in every run that no other
    task disturbs: a `connect` that ends has re-paired exactly if, before the
    client opened a second link, its closing PAIR was answered and its serial
    number was not. -/
theorem connect_repairs_iff (hsupplied : w.self.appKeyWasSupplied = true) (halone : w.alone = true)
    (hpeer : Cooperates w (connect w).2) (hended : (connect w).1 ≠ .pending) :
    Repaired w (connect w).2 ↔ Unverified (InTime (Early w (connect w).2)) := by
  have hconnect : Triple connect w (fun _ => Decided w) (fun _ => Decided w) (fun _ => True) := by
    refine connect_triple (A := fun w₁ => Using w w₁ [])
      (B := fun w₁ => Amiss w.self.appKey w w₁ ∨ ∃ w₂ done, Using w w₂ done ∧
        (Unverified fun q r => (q, some r) ∈ done) ∧ w₁ = w₂.discarded) ?_ ?_ ?_
    · exact (connectTransport_using _ halone).mono_raised fun _ _ h => Or.inl h
    · intro w₁ h₁
      refine (h₁.handshake hpeer.fits).mono ?_ ?_ fun _ h => h
      · intro _ w₂ h₂
        rcases h₂ with hamiss | ⟨done, hused, hnot⟩
        · exact Or.inl hamiss
        · exact hused.decided hsupplied hnot
      · intro e w₂ h₂
        rcases h₂ with hamiss | ⟨done, hused, hauth⟩
        · split
          · exact Or.inl (hamiss.later (Onward.discarded w₂))
          · exact Or.inl hamiss
        · -- Only an authentication error leads to the second attempt.
          have hkept := hused.appKeyWasSupplied.trans hsupplied
          split
          · next hrejected => exact Or.inr ⟨w₂, done, hused, hauth.mp hrejected.1, rfl⟩
          · next hother =>
            exact hused.decided hsupplied fun hun => hother ⟨hauth.mpr hun, hkept⟩
    · intro w₁ h₁
      rcases h₁ with hamiss | ⟨w₂, done, hused, hun, rfl⟩
      · have hagain : Moves Onward (connectAgain : M κ Unit) :=
          Moves.bind Onward.connects.disconnect fun _ =>
            Moves.bind Onward.connects.transports.connectTransport fun _ => Onward.greets.handshake
        exact (hamiss.triple hagain).mono (fun _ _ h => Or.inl h) (fun _ _ h => Or.inl h)
          fun _ _ => trivial
      · exact hused.connectAgain hun
  have hresult := Triple.iff_result (P := fun res w' => res ≠ .pending → Decided w w')
    (m := connect) (s := w)
  -- Nothing is amiss with a scooter that cooperates.
  have hdecided : Decided w (connect w).2 := by
    refine hresult.mp (hconnect.mono (fun _ _ h _ => h) (fun _ _ h _ => h) ?_) hended
    exact fun _ _ hpending => absurd rfl hpending
  exact hdecided.resolve_left hpeer.not_amiss

end Again

/-! ## Two scooters that have forgotten the key -/

/-- A PAIR that nobody asked for follows the answer to PING.  The closing PAIR
    takes it, the verification gets no answer, and the user presses the button
    while the second handshake waits. -/
def unaskedPair : World StubCrypto :=
  World.ofScript (fakeClient (some storedKey)) <|
    [.answer (.linked (.found 20)), .answer .ok,
      .answer .ok, respond 0 initReply, .answer .ok,
      .answer .ok, .answer .ok, respond 0 (pingReply true), respond 0 pairReply, .answer .ok,
      .answer .ok, .answer .ok,
      .answer .ok, .event (.tick 5000), .answer (.fail timerFault),
      .answer .ok, .event (.tick 5000), .answer (.fail timerFault),
      .answer .ok, .answer .ok] ++
    [.answer (.linked (.found 20)), .answer .ok,
      .answer .ok, respond 1 initReply, .answer .ok,
      .answer .ok, .answer .ok, respond 1 (pingReply false), .answer .ok,
      .answer .ok, .answer .ok, respond 1 pairReply, .answer .ok,
      .answer .ok, .answer .ok, respond 1 pairReply, .answer .ok,
      .answer .ok, respond 1 (readReply .mcu 0x10 serialChallenge), .answer .ok]

theorem unaskedPair_repairs :
    (Repaired unaskedPair (connect unaskedPair).2 ↔
        Unverified (InTime (Early unaskedPair (connect unaskedPair).2))) ∧
      Repaired unaskedPair (connect unaskedPair).2 ∧ (connect unaskedPair).1 = .ret () := by
  have hret : (connect unaskedPair).1 = .ret () := by decide +kernel
  have hopened : (connect unaskedPair).2.opened = 2 := by decide +kernel
  have hpeer : Cooperates unaskedPair (connect unaskedPair).2 := by
    refine ⟨by decide, by decide +kernel, fun l _ hl => ?_, by decide +kernel⟩
    rw [hopened] at hl
    rcases Nat.lt_succ_iff_lt_or_eq.mp hl with hl | rfl
    · obtain rfl := Nat.lt_one_iff.mp hl
      decide +kernel
    · decide +kernel
  refine ⟨connect_repairs_iff rfl rfl hpeer (by simp [hret]), ⟨by decide +kernel, by decide +kernel,
    10000, { unaskedPair.nameKeys with bleData := some bleKey }, by decide +kernel⟩, hret⟩

/-- The closing PAIR is not answered. -/
def silentPair : World StubCrypto :=
  World.ofScript (fakeClient (some storedKey))
    [.answer (.linked (.found 20)), .answer .ok,
      .answer .ok, respond 0 initReply, .answer .ok,
      .answer .ok, .answer .ok, respond 0 (pingReply true), .answer .ok,
      .answer .ok, .answer .ok, .event (.tick 5000), .answer (.fail timerFault)]

/-- Nothing comes from the scooter but its answers to INIT and PING.  `connect`
    ends with the timeout of the closing PAIR, and the key is not given up. -/
theorem silentPair_keeps_key :
    silentPair.self.appKeyWasSupplied = true ∧ silentPair.alone = true ∧
    Cooperates silentPair (connect silentPair).2 ∧
    (connect silentPair).2.trace.filterMap Obs.heard = [pingReply true, initReply] ∧
    (connect silentPair).1 =
      .raised ⟨.ninebotTimeoutError, "Timed out waiting for a response"⟩ ∧
    (connect silentPair).2.self.appKey = storedKey ∧ (connect silentPair).2.opened = 1 ∧
    ¬ Repaired silentPair (connect silentPair).2 := by
  have hopened : (connect silentPair).2.opened = 1 := by decide +kernel
  have hkept : (connect silentPair).2.self.appKeyWasSupplied = true := by decide +kernel
  refine ⟨rfl, rfl, ⟨by decide, by decide +kernel, fun l _ hl => ?_, by decide +kernel⟩,
    by decide +kernel, by decide +kernel, by decide +kernel, hopened, fun hrepaired => ?_⟩
  · rw [hopened] at hl
    obtain rfl := Nat.lt_one_iff.mp hl
    decide +kernel
  · rw [hrepaired.discarded] at hkept
    cases hkept

end Ninebot
