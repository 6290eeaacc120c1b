import Ninebot.FakeScooter
import Ninebot.Hex
import Ninebot.PairingKey
import Ninebot.Runs

/-! # The key that the config entry stores

    A scooter that holds the stored key, and runs of polls and restarts with
    it.  The key is kept through every loss and delay of replies, with two
    exceptions: an INIT reply cut below 16 bytes, and a word of the
    verification that is not answered.  Both are taken for a rejected key. -/

namespace Ninebot

open Coro

variable {κ : Type}

/-! ## The scooter and the faults -/

/-- Of what happened, newest first: a PING is answered with index 0 only after
    another key than `key` was offered. -/
def holdsKey (key : Bytes) : List Obs → Bool
  | [] => true
  | .received _ _ p :: older =>
      ((p.command = .ping → p.index ≠ 0) || older.any (·.offersOther key)) && holdsKey key older
  | _ :: older => holdsKey key older

/-- Of what was done, newest first: has the link opened last been greeted? -/
def greeted : List Obs → Bool
  | [] => false
  | .handshaken _ :: _ => true
  | .opened _ :: _ => false
  | _ :: older => greeted older

/-- An answer to INIT that holds no key. -/
def Obs.isShortInit : Obs → Bool
  | .answered _ q r _ => q = initRequest ∧ r.data.length < appKeyLength
  | _ => false

/-- A READ of one word that was not answered. -/
def Obs.isLostWord : Obs → Bool
  | .unanswered _ q => q.command = .read ∧ q.data = [2]
  | _ => false

/-- Of what was done, newest first: was an INIT reply too short, or a word not
    answered before the link was greeted? -/
def keyTrouble : List Obs → Bool
  | [] => false
  | o :: older => o.isShortInit || (o.isLostWord && !greeted older) || keyTrouble older

theorem holdsKey_suffix {key : Bytes} {new old : List Obs} (h : holdsKey key (new ++ old) = true) :
    holdsKey key old = true := by
  induction new with
  | nil => exact h
  | cons o new ih =>
    apply ih
    cases o
    case received n l p =>
      rw [List.cons_append, holdsKey, Bool.and_eq_true] at h
      exact h.2
    all_goals exact h

theorem holdsKey_received {key : Bytes} {new : List Obs} {n l : Nat} {p : Packet}
    (h : holdsKey key new = true) (hp : .received n l p ∈ new) (hping : p.command = .ping)
    (hzero : p.index = 0) : ∃ o ∈ new, o.offersOther key = true := by
  obtain ⟨newer, older, rfl⟩ := List.append_of_mem hp
  have htail := holdsKey_suffix h
  rw [holdsKey, Bool.and_eq_true] at htail
  have hany : older.any (·.offersOther key) = true := by
    simpa [hping, hzero] using htail.1
  obtain ⟨o, ho, hoffers⟩ := List.any_eq_true.mp hany
  exact ⟨o, List.mem_append_right _ (List.mem_cons_of_mem _ ho), hoffers⟩

theorem keyTrouble_append {new old : List Obs} (h : keyTrouble old = true) :
    keyTrouble (new ++ old) = true := by
  induction new with
  | nil => exact h
  | cons o new ih =>
    rw [List.cons_append, keyTrouble, ih, Bool.or_true]

theorem keyTrouble_shortInit {deeds : List Obs} {o : Obs} (ho : o ∈ deeds)
    (h : o.isShortInit = true) : keyTrouble deeds = true := by
  obtain ⟨newer, older, rfl⟩ := List.append_of_mem ho
  apply keyTrouble_append
  rw [keyTrouble, h]
  rfl

/-- What is done during a handshake does not greet the link. -/
theorem greeted_append {new old : List Obs} (h : ∀ o ∈ new, o.isMark = false) :
    greeted (new ++ old) = greeted old := by
  induction new with
  | nil => rfl
  | cons o new ih =>
    have hnew := ih fun x hx => h x (List.mem_cons_of_mem _ hx)
    have ho := h o List.mem_cons_self
    cases o <;> first | exact hnew | cases ho

/-! ## Steps that keep a key -/

theorem asyncPoll_greeting [Cipher κ] (includeStatic : Bool) (w : World κ) :
    Greeting w (asyncPoll includeStatic w).2 := by
  have hread : ∀ register word n,
      Moves Greeting (request (readRequest register word n) : M κ Packet) :=
    fun _ _ _ _ => request_greeting (by simp [readRequest])
  exact asyncPoll_moves hread includeStatic w

/-- A later moment with the same app key, when no other one was offered. -/
structure KeyKept (w w' : World κ) : Prop where
  order : ∀ start, KeepsOrder start w w'
  appKey : w'.self.appKey = w.self.appKey
  does : Does (fun o => o.offersOther w.self.appKey = false) w w'

namespace KeyKept

variable {w w' : World κ}

theorem of_greeting (h : Greeting w w') : KeyKept w w' :=
  ⟨h.order, h.link.appKey, h.does.mono fun _ ho => ho.2⟩

theorem of_trying (h : Trying w w') : KeyKept w w' := ⟨h.order, h.appKey, h.does⟩

theorem say (w : World κ) (level : LogLevel) (text : String) :
    KeyKept w (w.log (.log level text)) :=
  ⟨fun _ => KeepsOrder.log w rfl, rfl, Does.log w fun _ => rfl⟩

variable [Cipher κ]

theorem event (e : Event) (w : World κ) : KeyKept w (w.apply e) :=
  ⟨fun _ => KeepsOrder.apply e w, congrArg Session.appKey (SameSession.apply e w).session,
    Does.of_idle (Idle.apply e w)⟩

theorem asyncPoll (includeStatic : Bool) (w : World κ) :
    KeyKept w (Ninebot.asyncPoll includeStatic w).2 :=
  of_greeting (asyncPoll_greeting includeStatic w)

theorem disconnect (w : World κ) : KeyKept w (Ninebot.disconnect w).2 := by
  refine ⟨fun start => (KeepsOrder.connects start).disconnect w,
    congrArg Session.appKey (disconnect_sameSession w).session, (disconnect_linkDeeds w).mono ?_⟩
  intro o ho
  cases o <;> first | rfl | cases ho

end KeyKept

/-! ## Asking for the button -/

/-- A PAIR that asks the user to press the button: there is no session key yet. -/
def Obs.asksPress : Obs → Bool
  | .sent _ _ keys p => p.command = .pair ∧ keys.appData = none
  | _ => false

/-- A PING was answered by a scooter that does not know the key. -/
def Obs.isUnpaired : Obs → Bool
  | .answered _ q r _ => q.command = .ping ∧ r.index = 0
  | _ => false

/-- Since `w`, the button was asked for only where a PING was answered so. -/
structure Prompted (w w' : World κ) : Prop where
  trace : w.trace <:+ w'.trace
  unpaired : ∀ o ∈ w.newDeeds w', o.asksPress = true → ∃ o' ∈ w.newDeeds w', o'.isUnpaired = true

namespace Prompted

variable {w w' w'' : World κ}

/-- The button was not asked for. -/
theorem of_does (h : Does (fun o => o.asksPress = false) w w') : Prompted w w' := by
  refine ⟨h.trace, fun o ho hasks => ?_⟩
  rw [h.deeds o ho] at hasks
  cases hasks

/-- The PING has been answered so: the button may be asked for. -/
theorem of_unpaired (hw : w.trace <:+ w'.trace) (h : ∃ o ∈ w.newDeeds w', o.isUnpaired = true) :
    Prompted w w' := ⟨hw, fun _ _ _ => h⟩

theorem refl (w : World κ) : Prompted w w := of_does (Does.refl w)

theorem trans (h : Prompted w w') (h' : Prompted w' w'') : Prompted w w'' := by
  refine ⟨h.trace.trans h'.trace, fun o ho hasks => ?_⟩
  have hnew := World.newDeeds_trans h.trace h'.trace
  rw [hnew] at ho ⊢
  rcases List.mem_append.mp ho with hlater | hearlier
  · obtain ⟨o', ho', hunpaired⟩ := h'.unpaired o hlater hasks
    exact ⟨o', List.mem_append_left _ ho', hunpaired⟩
  · obtain ⟨o', ho', hunpaired⟩ := h.unpaired o hearlier hasks
    exact ⟨o', List.mem_append_right _ ho', hunpaired⟩

instance : Std.Refl (Prompted (κ := κ)) := ⟨refl⟩

instance : IsTrans (World κ) Prompted := ⟨fun _ _ _ => trans⟩

theorem log (w : World κ) {o : Obs} (h : o.asksPress = false) : Prompted w (w.log o) :=
  of_does (Does.log w fun _ => h)

/-- Steps that do nothing. -/
theorem congr (htrace : w'.trace = w.trace) : Prompted w w' := by
  apply of_does
  apply Does.of_same (htrace ▸ List.suffix_refl _)
  rw [World.deeds, World.deeds, htrace]

/-- Steps that do one thing. -/
theorem did {o : Obs} (h : o.asksPress = false) (htrace : w'.trace = o :: w.trace) :
    Prompted w w' := (log w h).trans (congr htrace)

variable [Cipher κ]

theorem transports : Transports (Prompted (κ := κ)) where
  event e w hallowed := of_does ((Does.waits _).event e w hallowed)
  script _ _ _ := congr rfl
  note w _ hplain hnote hfate := of_does ((Does.waits _).note w _ hplain hnote hfate)
  take htook := of_does ((Does.waits _).take htook)
  reset _ := did (o := .cleared) rfl rfl
  opened w _ := did (o := .opened w.opened) rfl rfl
  detach _ := congr rfl
  subscribe _ _ _ := congr rfl
  close _ l := did (o := .disconnected l) rfl rfl
  noted w o ho := log w (by cases o <;> first | rfl | cases ho)
  chunkSize _ _ := congr rfl

/-- Only a PAIR without a session key asks for the button. -/
theorem request {p : Packet} {w : World κ}
    (hp : p.command = .pair → w.self.crypto.keys.appData ≠ none) :
    Prompted w (Ninebot.request p none w).2 := by
  apply of_does
  refine (request_ends p none w).does (SameSession.asks.request p none w).trace rfl ?_
    (fun _ => rfl) (fun _ _ _ _ => rfl)
  intro l _
  simpa [World.sentObs, Obs.asksPress] using hp

theorem asyncPoll (includeStatic : Bool) (w : World κ) :
    Prompted w (Ninebot.asyncPoll includeStatic w).2 := by
  have hread : ∀ register word n,
      Moves Prompted (Ninebot.request (readRequest register word n) : M κ Packet) :=
    fun _ _ _ _ => request (by simp [readRequest])
  exact asyncPoll_moves hread includeStatic w

/-- A PING that is answered with index 0 is entered as such. -/
theorem ping (w : World κ) : Triple (Ninebot.request (pingRequest w.self.appKey)) w
    (fun r w' => Prompted w w' ∧ (r.index = 0 → ∃ o ∈ w.newDeeds w', o.isUnpaired = true))
    (fun _ => Prompted w) (Prompted w) := by
  have hping : Prompted w (Ninebot.request (pingRequest w.self.appKey) none w).2 :=
    request (by simp [pingRequest])
  refine ((Triple.of_last (I := Prompted w) hping).and (request_triple _ none w)).mono ?_
    (fun _ _ h => h.1) (fun _ h => h.1)
  rintro r w' ⟨h, _, hends⟩
  refine ⟨h, fun hzero => ?_⟩
  cases hends with
  | @answered _ l _ i _ _ _ _ hd =>
    have hmem : .answered l (pingRequest w.self.appKey) r i ∈ w.newDeeds w' := by
      rw [World.newDeeds_eq [_, _] hd]
      exact List.mem_cons_self
    exact ⟨_, hmem, by simp [Obs.isUnpaired, pingRequest, hzero]⟩

theorem verifySession : Moves Prompted (Ninebot.verifySession : M κ Unit) := by
  intro w
  apply Triple.iff_last.mp
  have hword : ∀ word n,
      Moves Prompted (Ninebot.request (readRequest serialNumber word n) : M κ Packet) :=
    fun _ _ _ => request (by simp [readRequest])
  have hread : Prompted w (readRegister serialNumber w).2 :=
    readRegister_moves (fun _ => hword 0 _) (fun word => hword word 2) w
  refine verifySession_triple (E := fun _ => Prompted w) (C := Prompted w)
    ((Triple.of_last hread).mono (fun _ _ h => h) ?_ fun _ h => h)
  intro e w' h
  split <;> exact h

/-- The client waits for the user only after the PING was answered with index 0,
    and sends the closing PAIR under the session key. -/
theorem handshake : Moves Prompted (Ninebot.handshake : M κ Unit) := by
  intro w
  apply Triple.iff_last.mp
  have hrequest : ∀ {p : Packet} {w' : World κ}, Prompted w w' →
      (p.command = .pair → w'.self.crypto.keys.appData ≠ none) →
      Triple (Ninebot.request p) w' (fun _ w'' => Prompted w w'') (fun _ w'' => Prompted w w'')
        (fun w'' => Prompted w w'') :=
    fun h hp => Triple.of_last (h.trans (request hp))
  refine handshake_triple (A := Prompted w)
    (B := fun w' => w.trace <:+ w'.trace ∧ ∃ o ∈ w.newDeeds w', o.isUnpaired = true)
    (D := fun w' => Prompted w w' ∧ w'.self.crypto.keys.appData ≠ none) (F := Prompted w)
    ?_ ?_ ?_ ?_ ?_
  · apply (hrequest (refl w) (by simp [initRequest])).mono_ret
    intro r w₁ h₁
    split
    · exact h₁
    · exact h₁.trans (congr rfl)
  · intro w₁ h₁
    refine (ping w₁).mono ?_ (fun _ _ h => h₁.trans h) (fun _ h => h₁.trans h)
    rintro r w₂ ⟨h₂, hunpaired⟩
    by_cases hzero : r.index = 0
    · rw [if_pos hzero]
      obtain ⟨o, ho, hindex⟩ := hunpaired hzero
      exact ⟨(h₁.trans h₂).trace, o, World.mem_newDeeds_of_later h₁.trace h₂.trace ho, hindex⟩
    · rw [if_neg hzero]
      exact ⟨(h₁.trans h₂).trans (congr rfl), by simp [World.setAppData, World.setCrypto]⟩
  · intro w₁ h₁
    -- Once a PING was answered with index 0 this stays in the trace.
    have hstay : ∀ {w' w'' : World κ},
        (w.trace <:+ w'.trace ∧ ∃ o ∈ w.newDeeds w', o.isUnpaired = true) →
        w'.trace <:+ w''.trace → w.trace <:+ w''.trace ∧
          ∃ o ∈ w.newDeeds w'', o.isUnpaired = true := by
      rintro w' w'' ⟨hw', o, ho, hunpaired⟩ hw''
      exact ⟨hw'.trans hw'', o, World.mem_newDeeds_of_earlier hw' hw'' ho, hunpaired⟩
    apply (awaitPairing_keeps (E := fun _ => Prompted w) (C := Prompted w) h₁
      (fun w' text h' => hstay h' (List.suffix_cons _ _)) ?_
      (fun w' h' => hstay h' (SameSession.asks.receive _ w').trace)
      (fun _ h' => of_unpaired h'.1 h'.2) (fun _ h' => of_unpaired h'.1 h'.2)).mono_ret
    · intro _ w₂ h₂
      exact ⟨(of_unpaired h₂.1 h₂.2).trans (congr rfl),
        by simp [World.setAppData, World.setCrypto]⟩
    · intro w' h'
      have hsent := hstay h' (SameSession.asks.send (pairRequest w'.self.serialChallenge) w').trace
      exact (Triple.of_last hsent).mono (fun _ _ h => h) (fun _ _ h => of_unpaired h.1 h.2)
        (fun _ h => of_unpaired h.1 h.2)
  · intro w₁ h₁
    exact hrequest h₁.1 fun _ => h₁.2
  · intro w₁ h₁
    apply (Triple.of_last (h₁.trans (verifySession w₁))).mono_ret
    intro _ w₂ h₂
    exact h₂.trans (log w₂ rfl)

theorem connect : Moves Prompted (Ninebot.connect : M κ Unit) :=
  transports.connect handshake (World.discarded_of (fun w _ => log w rfl) fun _ _ => congr rfl)

end Prompted

theorem prompted_keeps [Cipher κ] (w₀ : World κ) :
    Keeps (fun w _ => Prompted w₀ w) (fun w _ => Prompted w₀ w) where
  weaken _ _ h := h
  log w _ _ _ h := h.trans (Prompted.log w rfl)
  logged w _ _ _ h := h.trans (Prompted.log w rfl)
  connect w _ h _ := Triple.of_last (h.trans (Prompted.connect w))
  poll w _ includeStatic h := Triple.of_last (h.trans (Prompted.asyncPoll includeStatic w))
  drop w _ h := Triple.of_last (h.trans (Prompted.transports.disconnect w))

/-- Run lemma: whatever the scooter does, the button is asked for only after a
    PING was answered with index 0. -/
theorem lives_prompted [Cipher κ] {home₀ home : Home κ} (h : Lives home₀ home) :
    Prompted home₀.world home.world := by
  have hsetup : ∀ {home home' : Home κ} {deviceName : Option String},
      setupEntry home deviceName = .ok home' → Prompted home.world home'.world := by
    intro home home' deviceName hrun
    obtain ⟨_, _, rfl⟩ := setupEntry_eq hrun
    exact Prompted.congr rfl
  induction h with
  | setup hrun => exact hsetup hrun
  | between _ hb ih =>
    cases hb with
    | event e => exact ih.trans (Prompted.of_does (Does.of_idle (Idle.apply e _)))
    | supply => exact ih.trans (Prompted.congr rfl)
    | advertised => exact ih
  | poll _ ih => exact (prompted_keeps home₀.world).coordinatorPoll_last ih
  | restart _ hrun ih => exact ih.trans (hsetup hrun)

/-! ## Runs -/

/-- A run since `w₀` that has had a scooter with this key, and none of the two faults. -/
structure Sound (key : Bytes) (w₀ w : World κ) : Prop where
  peer : holdsKey key (w₀.newTrace w) = true
  faults : keyTrouble (w₀.newDeeds w) = false

/-- The client and the entry have the key, and no other one was offered. -/
structure HasKey (key : Bytes) (w₀ w : World κ) (entry : ConfigEntry) : Prop where
  appKey : w.self.appKey = key
  entry : entry.appKey = some (hexLower key)
  offered : ∀ o ∈ w₀.newDeeds w, o.offersOther key = false

/-- As long as the run is sound, the key is there. -/
structure Custody (key : Bytes) (w₀ w : World κ) (entry : ConfigEntry) : Prop where
  trace : w₀.trace <:+ w.trace
  order : Orderly w₀.trace.length w
  holds : Sound key w₀ w → HasKey key w₀ w entry

variable {key : Bytes} {w₀ w w' : World κ} {entry : ConfigEntry}

theorem Sound.earlier (h : Sound key w₀ w') (hw₀ : w₀.trace <:+ w.trace)
    (hw : w.trace <:+ w'.trace) : Sound key w₀ w := by
  refine ⟨?_, ?_⟩
  · have hpeer := h.peer
    rw [World.newTrace_trans hw₀ hw] at hpeer
    exact holdsKey_suffix hpeer
  · by_contra htrouble
    have hfaults := h.faults
    rw [World.newDeeds_trans hw₀ hw, keyTrouble_append (by simpa using htrouble)] at hfaults
    cases hfaults

theorem HasKey.later (h : HasKey key w₀ w entry) (hw₀ : w₀.trace <:+ w.trace)
    (hkept : KeyKept w w') : HasKey key w₀ w' entry := by
  refine ⟨hkept.appKey.trans h.appKey, h.entry, ?_⟩
  intro o ho
  rw [World.newDeeds_trans hw₀ hkept.does.trace] at ho
  rcases List.mem_append.mp ho with hnew | hold
  · rw [← h.appKey]
    exact hkept.does.deeds o hnew
  · exact h.offered o hold

theorem Custody.later (h : Custody key w₀ w entry) (hkept : KeyKept w w') :
    Custody key w₀ w' entry := by
  refine ⟨h.trace.trans hkept.does.trace, (hkept.order _).keeps h.order, fun hsound => ?_⟩
  exact (h.holds (hsound.earlier h.trace hkept.does.trace)).later h.trace hkept

/-- In a sound run no PING is answered with index 0. -/
theorem Custody.paired (h : Custody key w₀ w entry) (hsound : Sound key w₀ w) :
    ∀ o ∈ w₀.newDeeds w, o.isUnpaired = false := by
  intro o ho
  by_contra hunpaired
  cases o with
  | answered l q r i =>
    obtain ⟨hping, hzero⟩ : q.command = .ping ∧ r.index = 0 := by
      simpa [Obs.isUnpaired] using hunpaired
    obtain ⟨hmem, _⟩ := (World.mem_newDeeds_iff h.trace).mp ho
    obtain ⟨hm, _, _, hrec⟩ := h.order.received_of_answered h.trace hmem
    have hcommand : r.command = .ping := by
      rw [Packet.command_of_matchesRequest hm, hping]
      rfl
    obtain ⟨o, hmem, hother⟩ := holdsKey_received hsound.peer hrec hcommand hzero
    -- Some other key was offered before, but none was.
    have hdeed : o ∈ w₀.newDeeds w := by
      refine (World.mem_newDeeds_iff h.trace).mpr ⟨hmem, ?_⟩
      cases o <;> first | rfl | cases hother
    rw [(h.holds hsound).offered o hdeed] at hother
    cases hother
  | _ => exact hunpaired rfl

/-- In a sound run no handshake rejects the key. -/
theorem Custody.not_rejected (h : Custody key w₀ w entry)
    (hsound : Sound key w₀ w') : ¬ Rejected w w' := by
  intro hrejected
  obtain ⟨w₁, w₂, hopened, htrying, hgreet, hrejects, hw₂⟩ := hrejected
  have hkept : KeyKept w w₂ := KeyKept.of_trying (htrying.greeting hgreet)
  have hw₁ := h.trace.trans htrying.does.trace
  -- Up to the moment of the rejection everything is as it should be.
  have hcustody := h.later hkept
  have hsound₂ := hsound.earlier hcustody.trace hw₂
  cases hrejects with
  | shortInit hans hshort =>
    have htrouble := keyTrouble_shortInit
      (World.mem_newDeeds_of_later hw₁ hgreet.does.trace hans) (by simp [Obs.isShortInit, hshort])
    rw [hsound₂.faults] at htrouble
    cases htrouble
  | unpaired hunpaired =>
    obtain ⟨l, offered, r, i, hans, hzero⟩ := hunpaired
    have hpaired := hcustody.paired hsound₂ _
      (World.mem_newDeeds_of_later hw₁ hgreet.does.trace hans)
    simp [Obs.isUnpaired, pingRequest, hzero] at hpaired
  | @unverified l l' challenge r i word hans hhead =>
    -- The last thing done was to give up a word, before the link was greeted.
    have hopen : w₀.newDeeds w₁ = .opened w.opened :: w₀.newDeeds w := by
      rw [World.newDeeds_trans h.trace hopened.transported.does.trace,
        World.newDeeds_eq [.opened w.opened] hopened.deeds]
      rfl
    have hall : w₀.newDeeds w₂ = w₁.newDeeds w₂ ++ .opened w.opened :: w₀.newDeeds w := by
      rw [World.newDeeds_trans hw₁ hgreet.does.trace, hopen]
    have hdeeds := hgreet.does.deeds
    rw [World.deeds_eq_newDeeds hgreet.does.trace] at hhead
    cases hnew : w₁.newDeeds w₂ with
    | nil =>
      rw [hnew] at hans
      cases hans
    | cons o tail =>
      rw [hnew] at hhead hall hdeeds
      obtain rfl : o = .unanswered l' (readRequest serialNumber word 2) := by simpa using hhead
      have hungreeted : greeted (tail ++ .opened w.opened :: w₀.newDeeds w) = false := by
        rw [greeted_append fun x hx => (hdeeds x (List.mem_cons_of_mem _ hx)).1]
        rfl
      have htrouble : keyTrouble (w₀.newDeeds w₂) = true := by
        rw [hall, List.cons_append, keyTrouble, hungreeted]
        rfl
      rw [hsound₂.faults] at htrouble
      cases htrouble

/-! ## Every step of a run -/

section Steps

variable [Cipher κ]

/-- One `connect` keeps the key in custody, whatever its outcome. -/
theorem Custody.connect (h : Custody key w₀ w entry) :
    Custody key w₀ (Ninebot.connect w).2 entry := by
  have horder := connect_keepsOrder w₀.trace.length w
  rcases trying_or_rejected w with htrying | hrejected
  · exact h.later (KeyKept.of_trying htrying)
  · refine ⟨h.trace.trans horder.trace, horder.keeps h.order, fun hsound => ?_⟩
    exact absurd hrejected (h.not_rejected hsound)

omit [Cipher κ] in
/-- What is written to the entry is the key that is there. -/
theorem Custody.persisted (h : Custody key w₀ w entry) :
    Custody key w₀ w (entry.persisted w.self.appKey) := by
  refine ⟨h.trace, h.order, fun hsound => ?_⟩
  have hhas := h.holds hsound
  refine ⟨hhas.appKey, ?_, hhas.offered⟩
  rw [hhas.appKey]
  rfl

theorem custody_keeps (key : Bytes) (w₀ : World κ) : Keeps (Custody key w₀) (Custody key w₀) where
  weaken _ _ h := h
  log w _ level text h := h.later (KeyKept.say w level text)
  logged w _ level text h := h.later (KeyKept.say w level text)
  connect _ c h _ := (Triple.of_last (I := fun w' => Custody key w₀ w' c) h.connect).mono
    (fun _ _ h' => h'.persisted) (fun _ _ h' => h') (fun _ h' => h')
  poll w c includeStatic h := Triple.of_last (I := fun w' => Custody key w₀ w' c)
    (h.later (KeyKept.asyncPoll includeStatic w))
  drop w c h := Triple.of_last (I := fun w' => Custody key w₀ w' c)
    (h.later (KeyKept.disconnect w))

/-- A restart: the queue is empty, and the key is read back from the entry. -/
theorem setupEntry_custody {home home' : Home κ} {deviceName : Option String} (hkey : key ≠ [])
    (htrace : w₀.trace <:+ home.world.trace)
    (horder : Orderly w₀.trace.length (home.world.setResponses []))
    (hentry : Sound key w₀ home.world → home.entry.appKey = some (hexLower key) ∧
      ∀ o ∈ w₀.newDeeds home.world, o.offersOther key = false)
    (hrun : setupEntry home deviceName = .ok home') : Custody key w₀ home'.world home'.entry := by
  obtain ⟨appKey, hstored, rfl⟩ := setupEntry_eq hrun
  refine ⟨htrace, horder.congr rfl rfl, fun hsound => ?_⟩
  obtain ⟨htext, hoffered⟩ := hentry ⟨hsound.peer, hsound.faults⟩
  obtain rfl : appKey = some key := by
    rw [storedKey_hexLower hkey htext] at hstored
    exact (Except.ok.inj hstored).symm
  refine ⟨?_, htext, hoffered⟩
  show (if key = [] then _ else key) = key
  rw [if_neg hkey]

theorem between_custody {home home' : Home κ} (h : Custody key w₀ home.world home.entry)
    (hb : Between home home') : Custody key w₀ home'.world home'.entry := by
  cases hb with
  | event e => exact h.later (KeyKept.event e home.world)
  | supply script gas =>
    exact h.later ⟨fun _ => KeepsOrder.congr rfl rfl, rfl, Does.of_same (List.suffix_refl _) rfl⟩
  | advertised manufacturerData => exact h

/-- Run lemma: from a restart with the key in the entry on, through polls,
    restarts and events. -/
theorem lives_custody {home₀ home : Home κ} (hkey : key ≠ [])
    (hentry : home₀.entry.appKey = some (hexLower key)) (h : Lives home₀ home) :
    Custody key home₀.world home.world home.entry := by
  induction h with
  | setup hrun =>
    have hempty : Orderly home₀.world.trace.length (home₀.world.setResponses []) :=
      Orderly.of_empty (w := home₀.world.setResponses []) rfl
    exact setupEntry_custody hkey (List.suffix_refl _) hempty
      (fun _ => ⟨hentry, by simp [World.newDeeds_self]⟩) hrun
  | between _ hb ih => exact between_custody ih hb
  | poll _ ih => exact (custody_keeps key home₀.world).coordinatorPoll_last ih
  | restart _ hrun ih =>
    refine setupEntry_custody hkey ih.trace (ih.order.empty rfl rfl) (fun hsound => ?_) hrun
    exact ⟨(ih.holds hsound).entry, (ih.holds hsound).offered⟩

/-- A run of polls and restarts that starts with a key in the config entry,
    with a scooter that holds this key, keeps and offers this key throughout
    and never asks for the button, if no INIT reply is too short and every word
    of a verification is answered. -/
theorem stored_key_kept {key : AppKey} {home₀ home : Home κ}
    (hentry : home₀.entry.appKey = some (hexLower key.1)) (h : Lives home₀ home)
    (hpeer : holdsKey key.1 (home₀.world.newTrace home.world) = true)
    (hfaults : keyTrouble (home₀.world.newDeeds home.world) = false) :
    home.world.self.appKey = key.1 ∧ home.entry.appKey = some (hexLower key.1) ∧
      (∀ t l keys p, .sent t l keys p ∈ home₀.world.newDeeds home.world → p.command = .ping →
        p.data = key.1) ∧
      ∀ o ∈ home₀.world.newDeeds home.world, o.isUnpaired = false ∧ o.asksPress = false := by
  have hkey : key.1 ≠ [] := by
    intro hnil
    have hlen := key.2
    rw [hnil] at hlen
    cases hlen
  have hcustody := lives_custody hkey hentry h
  obtain ⟨happ, htext, hoffered⟩ := hcustody.holds ⟨hpeer, hfaults⟩
  have hpaired := hcustody.paired ⟨hpeer, hfaults⟩
  refine ⟨happ, htext, ?_, ?_⟩
  · intro t l keys p hsent hping
    have hother := hoffered _ hsent
    simpa [Obs.offersOther, hping] using hother
  · intro o ho
    refine ⟨hpaired o ho, ?_⟩
    by_contra hasks
    obtain ⟨o', ho', hunpaired⟩ := (lives_prompted h).unpaired o ho (by simpa using hasks)
    rw [hpaired o' ho'] at hunpaired
    cases hunpaired

end Steps

/-! ## Two concrete runs -/

def pairedKey : AppKey := ⟨storedKey, rfl⟩

/-- A process that has just ended, with the key in the entry. -/
def pairedHome (script : List Step) : Home StubCrypto where
  world := World.ofScript (fakeClient none) script
  entry := ⟨"Scooter", "C0:FF:EE:00:00:01", some "E2 Pro 0216", some (hexLower pairedKey.1)⟩
  coordinator := Coordinator.make "C0:FF:EE:00:00:01" "Scooter"

/-- The next process. -/
def restarted (home : Home StubCrypto) : Home StubCrypto :=
  match setupEntry home none with
  | .ok home' => home'
  | .error _ => home

/-- Both READs of the verification get no answer; then the scooter is greeted again. -/
def lostVerification : List Step :=
  greetPaired 0 ++ [.answer .ok, .event (.tick 5000), .answer (.fail timerFault),
    .answer .ok, .event (.tick 5000), .answer (.fail timerFault), .answer .ok, .answer .ok] ++
  [.answer (.linked (.found 20)), .answer .ok,
    .answer .ok, respond 1 initReply, .answer .ok, .answer .ok, .answer .ok]

theorem restarted_lives (script : List Step) :
    Lives (pairedHome script) (restarted (pairedHome script)) := by
  have hsetup : setupEntry (pairedHome script) none = .ok (restarted (pairedHome script)) := rfl
  exact Lives.setup hsetup

/-- The key is kept over a restart and a connection that is verified. -/
theorem verified_keeps_key :
    (coordinatorPoll (restarted (pairedHome verified))).2.world.self.appKey = pairedKey.1 ∧
      (coordinatorPoll (restarted (pairedHome verified))).2.entry.appKey =
        some (hexLower pairedKey.1) ∧
      (∀ t l keys p, .sent t l keys p ∈ (pairedHome verified).world.newDeeds
        (coordinatorPoll (restarted (pairedHome verified))).2.world → p.command = .ping →
        p.data = pairedKey.1) ∧
      ∀ o ∈ (pairedHome verified).world.newDeeds
        (coordinatorPoll (restarted (pairedHome verified))).2.world,
        o.isUnpaired = false ∧ o.asksPress = false :=
  stored_key_kept rfl (Lives.poll (restarted_lives verified)) (by decide +kernel)
    (by decide +kernel)

/-- The scooter holds the key and answers under it, yet the key is discarded
    and another one is offered. -/
theorem lostVerification_discards_key :
    Lives (pairedHome lostVerification)
      (coordinatorPoll (restarted (pairedHome lostVerification))).2 ∧
    holdsKey pairedKey.1
      (coordinatorPoll (restarted (pairedHome lostVerification))).2.world.trace = true ∧
    (coordinatorPoll (restarted (pairedHome lostVerification))).2.world.self.appKey ≠
      pairedKey.1 ∧
    (coordinatorPoll (restarted (pairedHome lostVerification))).2.world.trace.any
      (·.offersOther pairedKey.1) = true :=
  ⟨Lives.poll (restarted_lives lostVerification), by decide +kernel, by decide +kernel,
    by decide +kernel⟩

end Ninebot
