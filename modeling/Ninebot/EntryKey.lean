import Ninebot.Histories
import Ninebot.StoredKey

/-! # The key in the entry and the key in use

    The pairing key is kept three times: by the client, which may replace it
    during `connect`; by the cipher of a link, once a handshake is complete;
    and in hex in the config entry, written after `connect` has returned and
    read back by the next process.

    This file defines:
    - `handshakeKey`: the key under which the last handshake was completed
    - `Stores`: what the entry holds, at every moment of a run -/

namespace Ninebot

open Coro

variable {κ : Type}

/-! ## The key of a handshake -/

def Obs.isHandshaken : Obs → Bool
  | .handshaken _ => true
  | _ => false

/-- Of what was done, newest first: the app key that encrypted the packet sent last. -/
def lastSentKey : List Obs → Option Bytes
  | [] => none
  | .sent _ _ keys _ :: _ => keys.appData
  | _ :: older => lastSentKey older

/-- Of what was done, newest first: the app key under which the handshake
    completed last has ended. -/
def handshakeKey : List Obs → Option Bytes
  | [] => none
  | .handshaken _ :: older => lastSentKey older
  | _ :: older => handshakeKey older

/-- What a run leaves of the key that was stored at its start. -/
def keyAfter (start : Option String) (deeds : List Obs) : Option String :=
  match handshakeKey deeds with
  | none => start
  | some key => some (hexLower key)

section Lists

variable {new old : List Obs} {key : Bytes}

theorem handshakeKey_append (h : ∀ o ∈ new, o.isHandshaken = false) :
    handshakeKey (new ++ old) = handshakeKey old := by
  induction new with
  | nil => rfl
  | cons o new ih =>
    have hnew := ih fun x hx => h x (List.mem_cons_of_mem _ hx)
    have ho := h o List.mem_cons_self
    cases o <;> first | exact hnew | cases ho

theorem lastSentKey_earlier (h : lastSentKey new = some key) :
    lastSentKey (new ++ old) = some key := by
  induction new with
  | nil => cases h
  | cons o new ih => cases o <;> first | exact h | exact ih h

theorem handshakeKey_earlier (h : handshakeKey new = some key) :
    handshakeKey (new ++ old) = some key := by
  induction new with
  | nil => cases h
  | cons o new ih => cases o <;> first | exact lastSentKey_earlier h | exact ih h

theorem keyAfter_handshake {start : Option String} (h : handshakeKey new = some key) :
    keyAfter start new = some (hexLower key) := by
  unfold keyAfter
  rw [h]

theorem lastSentKey_later
    (hnew : ∀ t l keys p, Obs.sent t l keys p ∈ new → keys.appData = some key)
    (h : lastSentKey old = some key) : lastSentKey (new ++ old) = some key := by
  induction new with
  | nil => exact h
  | cons o new ih =>
    have hrest := ih fun t l keys p hmem => hnew t l keys p (List.mem_cons_of_mem _ hmem)
    cases o
    case sent t l keys p => exact hnew t l keys p List.mem_cons_self
    all_goals exact hrest

end Lists

/-! ## A handshake -/

section Handshake

variable [Cipher κ]

/-- A handshake that began at `w` has switched to the session key, and has sent
    a packet under it. -/
structure Sealed (w w' : World κ) : Prop where
  greeting : Greeting w w'
  appData : w'.self.crypto.keys.appData = some w'.self.appKey
  sent : lastSentKey (w.newDeeds w') = some w'.self.appKey

omit [Cipher κ] in
theorem Sealed.later {w w₁ w₂ : World κ} {P : Packet → Prop} (h : Sealed w w₁)
    (hgreet : Greeting w₁ w₂) (hsends : Sends P w₁ w₂) : Sealed w w₂ := by
  have hsame := hsends.session.session
  have happ : w₂.self.appKey = w₁.self.appKey := congrArg Session.appKey hsame
  have hkeys : w₂.self.crypto.keys = w₁.self.crypto.keys := congrArg Session.keys hsame
  refine ⟨h.greeting.trans hgreet, ?_, ?_⟩
  · rw [hkeys, happ]
    exact h.appData
  · rw [happ, World.newDeeds_trans h.greeting.does.trace hgreet.does.trace]
    apply lastSentKey_later _ h.sent
    intro t l keys p hmem
    obtain ⟨_, _, rfl⟩ := hsends.sent t l keys p hmem
    exact h.appData

/-- The closing PAIR is sent under the session key, and so is what follows it. -/
theorem handshake_sealed (w : World κ) :
    Triple handshake w (fun _ w' => ∃ w₁, Sealed w w₁ ∧ w' = w₁.log (.handshaken w₁.self.client))
      (fun _ _ => True) (fun _ => True) := by
  refine handshake_triple (A := Greeting w) (B := Greeting w)
    (D := fun w' => Greeting w w' ∧ w'.self.crypto.keys.appData = some w'.self.appKey)
    (F := Sealed w) ?_ ?_ ?_ ?_ ?_
  · -- Up to the session key everything is sent under the name key or the BLE key.
    have hinit : Greeting w (request initRequest none w).2 :=
      request_greeting (by simp [initRequest])
    apply (Triple.of_last hinit).mono _ (fun _ _ _ => trivial) (fun _ _ => trivial)
    intro r w₁ h₁
    split
    · trivial
    · exact h₁.trans (Greeting.bleData w₁ r.data)
  · intro w₁ h₁
    have hping := request_greeting (p := pingRequest w₁.self.appKey) (w := w₁) (fun _ => rfl)
    apply (Triple.of_last hping).mono _ (fun _ _ _ => trivial) (fun _ _ => trivial)
    intro r w₂ h₂
    split
    · exact h₁.trans h₂
    · exact ⟨(h₁.trans h₂).trans (Greeting.appData w₂), rfl⟩
  · intro w₁ h₁
    have hwait := awaitPairing_keeps (w := w₁) (E := fun _ _ => True) (C := fun _ => True) h₁
      (fun w' text h' => h'.trans (Greeting.say w' text))
      (fun w' h' => (Triple.of_last (send_greeting (p := pairRequest w'.self.serialChallenge)
        (w := w') (by simp [pairRequest]))).mono (fun _ _ h => h'.trans h) (fun _ _ _ => trivial)
        (fun _ _ => trivial))
      (fun w' h' => h'.trans (Greeting.hear w')) (fun _ _ => trivial) (fun _ _ => trivial)
    apply hwait.mono_ret
    intro _ w₂ h₂
    exact ⟨h₂.trans (Greeting.appData w₂), rfl⟩
  · intro w₁ h₁
    obtain ⟨hgreet₁, happData⟩ := h₁
    -- The closing PAIR is the first packet under the session key.
    have hpair := request_greeting (p := pairRequest w₁.self.serialChallenge) (w := w₁)
      (by simp [pairRequest])
    apply ((Triple.of_last hpair).and (request_triple _ none w₁)).mono _ (fun _ _ _ => trivial)
      (fun _ _ => trivial)
    intro r w₂ h₂
    obtain ⟨hgreet₂, hsame, hends⟩ := h₂
    have happ : w₂.self.appKey = w₁.self.appKey := congrArg Session.appKey hsame.session
    have hkeys : w₂.self.crypto.keys = w₁.self.crypto.keys := congrArg Session.keys hsame.session
    refine ⟨hgreet₁.trans hgreet₂, ?_, ?_⟩
    · rw [hkeys, happ]
      exact happData
    · rw [happ, World.newDeeds_trans hgreet₁.does.trace hgreet₂.does.trace]
      apply lastSentKey_earlier
      cases hends with
      | answered _ _ _ hd =>
        rw [World.newDeeds_eq [_, _] hd]
        exact happData
  · -- The verification sends READs, and no PAIR, after it.
    intro w₁ h₁
    have hread : ∀ word n, Moves (Sends (·.command = .read))
        (request (readRequest serialNumber word n) : M κ Packet) :=
      fun _ _ => request_sends (P := (·.command = .read)) rfl none
    have hsends := readRegister_moves (fun _ => hread 0 _) (fun word => hread word 2) w₁
    have hgreet := readRegister_greeting serialNumber w₁
    have hsealed := h₁.later hgreet hsends
    apply (verifySession_triple (I := Sealed w) _).mono_ret
    · intro _ w₂ h₂
      exact ⟨w₂, h₂, rfl⟩
    · apply (Triple.of_last hsealed).mono (fun _ _ h => h) _ (fun _ _ => trivial)
      intro e w' _
      split <;> trivial

end Handshake

/-! ## A link that was not greeted -/

/-- If the client has a link that is up, nobody has greeted the scooter on it. -/
def Ungreeted (w : World κ) : Prop := w.isConnected = true → greeted w.deeds = false

theorem World.isConnected_earlier {w w' : World κ}
    (hclient : w'.self.client = w.self.client ∨ w'.self.client = none)
    (hup : ∀ l, w'.isUp l = true → w.isUp l = true) (h : w'.isConnected = true) :
    w.isConnected = true := by
  unfold World.isConnected at *
  rcases hclient with hsame | hnone
  · rw [hsame] at h
    rcases hc : w.self.client with _ | l
    · rw [hc] at h
      cases h
    · rw [hc] at h
      exact hup l h
  · rw [hnone] at h
    cases h

/-- A later moment before a handshake is complete. -/
structure Ungreets (w w' : World κ) : Prop where
  does : Does (·.isHandshaken = false) w w'
  stays : Ungreeted w → Ungreeted w'

namespace Ungreets

variable {w w' w'' : World κ}

theorem refl (w : World κ) : Ungreets w w := ⟨Does.refl w, fun h => h⟩

theorem trans (h : Ungreets w w') (h' : Ungreets w' w'') : Ungreets w w'' :=
  ⟨h.does.trans h'.does, fun hw => h'.stays (h.stays hw)⟩

instance : Std.Refl (Ungreets (κ := κ)) := ⟨refl⟩

instance : IsTrans (World κ) Ungreets := ⟨fun _ _ _ => trans⟩

theorem of_session (hs : SameSession w w') (hdoes : Does (·.isHandshaken = false) w w')
    (hgreeted : greeted w'.deeds = greeted w.deeds) : Ungreets w w' :=
  ⟨hdoes, fun h hup => hgreeted.trans (h (World.isConnected_earlier hs.client hs.up hup))⟩

theorem of_idle (h : Idle w w') : Ungreets w w' :=
  of_session h.session (Does.of_idle h) (congrArg greeted h.deeds)

theorem log (w : World κ) {o : Obs} (ho : o.isMark = false) : Ungreets w (w.log o) := by
  by_cases hdeed : o.isDeed = true
  · apply of_session (SameSession.log w o)
      (Does.log w fun _ => by cases o <;> first | rfl | cases ho)
    rw [World.deeds_log_deed hdeed]
    cases o <;> first | rfl | cases ho
  · exact of_idle (Idle.log w o (by simpa using hdeed))

theorem greeting_greeted (h : Greeting w w') : greeted w'.deeds = greeted w.deeds := by
  rw [World.deeds_eq_newDeeds h.does.trace]
  exact greeted_append fun o ho => (h.does.deeds o ho).1

theorem of_greeting (h : Greeting w w') : Ungreets w w' := by
  refine ⟨h.does.mono ?_, ?_⟩
  · intro o ho
    have hmark := ho.1
    cases o <;> first | rfl | cases hmark
  · intro hw hup
    rw [greeting_greeted h]
    exact hw (World.isConnected_earlier h.link.client h.link.up hup)

variable [Cipher κ]

theorem waits : Waits (Ungreets (κ := κ)) where
  event e w _ := of_idle (Idle.apply e w)
  script w s _ := of_idle (Idle.setScript w s)
  note w o _ hdeed _ := of_idle (Idle.log w o hdeed)
  take h := of_idle (Idle.waits.take h)

omit [Cipher κ] in
/-- The client takes a new link, and nobody has greeted the scooter on it. -/
theorem opened (w : World κ) (rx : RxChar) :
    Ungreets w ((w.linked rx).setClient (some w.opened)) := by
  have hdeeds : ((w.linked rx).setClient (some w.opened)).deeds = .opened w.opened :: w.deeds :=
    World.deeds_log_deed rfl
  refine ⟨Does.of_deeds [_] (List.suffix_cons _ _) hdeeds (by simp [Obs.isHandshaken]), ?_⟩
  intro _ _
  rw [hdeeds]
  rfl

theorem transports : Transports (Ungreets (κ := κ)) where
  toWaits := waits
  reset _ := ⟨Does.of_same (List.suffix_cons _ _) rfl, fun h => h⟩
  opened := opened
  detach w := of_idle ⟨SameSession.detach w, rfl⟩
  subscribe w l on := of_idle ⟨SameSession.subscribe w l on, rfl⟩
  close w l := by
    have hclose : Ungreets w (w.close l) := of_idle ⟨SameSession.close w l, rfl⟩
    exact hclose.trans (log _ rfl)
  noted w o ho := log w (by cases o <;> first | rfl | cases ho)
  chunkSize _ _ := ⟨Does.of_same (List.suffix_refl _) rfl, fun h => h⟩

omit [Cipher κ] in
theorem discarded (w : World κ) : Ungreets w w.discarded :=
  World.discarded_of (fun w _ => log w rfl)
    (fun _ _ => ⟨Does.of_same (List.suffix_refl _) rfl, fun h => h⟩) w

end Ungreets

/-! ## `connect` -/

section Connect

variable [Cipher κ] {w : World κ}

/-- The handshake that has just been completed is the last one, under the key in use. -/
def CompletesWith (w w' : World κ) : Prop :=
  w.trace <:+ w'.trace ∧ handshakeKey (w.newDeeds w') = some w'.self.appKey

theorem handshake_completes {w₁ : World κ} (h : Ungreets w w₁) :
    Triple handshake w₁ (fun _ => CompletesWith w) (fun _ => Ungreets w) (Ungreets w) := by
  apply ((handshake_sealed w₁).and (handshake_rejects w₁)).mono
  · intro _ w' h'
    obtain ⟨⟨w₂, hsealed, rfl⟩, _⟩ := h'
    have htrace := h.does.trace.trans hsealed.greeting.does.trace
    have hdone : w₂.newDeeds (w₂.log (.handshaken w₂.self.client)) =
        [.handshaken w₂.self.client] :=
      World.newDeeds_eq [_] (World.deeds_log_deed rfl)
    refine ⟨htrace.trans (List.suffix_cons _ _), ?_⟩
    rw [World.newDeeds_trans htrace (List.suffix_cons _ _), hdone]
    show lastSentKey (w.newDeeds w₂) = _
    rw [World.newDeeds_trans h.does.trace hsealed.greeting.does.trace]
    exact lastSentKey_earlier hsealed.sent
  · intro e w' h'
    exact h.trans (Ungreets.of_greeting h'.2.1)
  · intro w' h'
    exact h.trans (Ungreets.of_greeting h'.2)

theorem greet_completes {w₁ : World κ} (h : Ungreets w w₁) :
    Triple (do
        connectTransport
        handshake) w₁ (fun _ => CompletesWith w) (fun _ => Ungreets w) (Ungreets w) := by
  have hopen := h.trans (Ungreets.transports.connectTransport w₁)
  apply Triple.bind (Triple.of_last hopen)
  intro _ w₂ h₂
  exact handshake_completes h₂

/-- A `connect` that returns has completed a handshake with the key in use; in
    any other case it has completed none, whatever key is in use now. -/
theorem connect_completes (w : World κ) :
    Triple connect w (fun _ => CompletesWith w) (fun _ => Ungreets w) (Ungreets w) := by
  refine connect_triple (A := Ungreets w) (B := Ungreets w)
    (Triple.of_last (Ungreets.transports.connectTransport w)) ?_ ?_
  · intro w₁ h₁
    apply (handshake_completes h₁).mono_raised
    intro e w₂ h₂
    split
    · exact h₂.trans (Ungreets.discarded w₂)
    · exact h₂
  · intro w₁ h₁
    have hdisconnect := h₁.trans (Ungreets.transports.disconnect w₁)
    apply Triple.bind (Triple.of_last hdisconnect)
    intro _ w₂ h₂
    exact greet_completes h₂

end Connect

/-! ## Runs -/

/-- What the entry holds: the key stored at the start, or that of the last
    handshake; and the client's key, while its link is greeted and up. -/
structure Stores (start : Option String) (w₀ w : World κ) (entry : ConfigEntry) : Prop where
  trace : w₀.trace <:+ w.trace
  stored : entry.appKey = keyAfter start (w₀.newDeeds w)
  inUse : w.isConnected = true → greeted w.deeds = true →
    entry.appKey = some (hexLower w.self.appKey)

section Runs

variable {start : Option String} {w₀ w w' : World κ} {entry : ConfigEntry}

theorem Stores.later (h : Stores start w₀ w entry) (hdoes : Does (·.isHandshaken = false) w w')
    (hinUse : w'.isConnected = true → greeted w'.deeds = true →
      entry.appKey = some (hexLower w'.self.appKey)) : Stores start w₀ w' entry := by
  refine ⟨h.trace.trans hdoes.trace, ?_, hinUse⟩
  unfold keyAfter
  rw [World.newDeeds_trans h.trace hdoes.trace, handshakeKey_append hdoes.deeds]
  exact h.stored

/-- The link, whether it was greeted, and the key in use are the same. -/
theorem Stores.same (h : Stores start w₀ w entry) (hdoes : Does (·.isHandshaken = false) w w')
    (hclient : w'.self.client = w.self.client ∨ w'.self.client = none)
    (hup : ∀ l, w'.isUp l = true → w.isUp l = true) (hgreeted : greeted w'.deeds = greeted w.deeds)
    (hkey : w'.self.appKey = w.self.appKey) : Stores start w₀ w' entry := by
  apply h.later hdoes
  intro hconnected hg
  rw [hkey]
  rw [hgreeted] at hg
  exact h.inUse (World.isConnected_earlier hclient hup hconnected) hg

theorem Stores.idle (h : Stores start w₀ w entry) (hi : Idle w w') : Stores start w₀ w' entry :=
  h.same (Does.of_idle hi) hi.session.client hi.session.up (congrArg greeted hi.deeds)
    (congrArg Session.appKey hi.session.session)

theorem Stores.greeting (h : Stores start w₀ w entry) (hg : Greeting w w') :
    Stores start w₀ w' entry :=
  h.same (Ungreets.of_greeting hg).does hg.link.client hg.link.up (Ungreets.greeting_greeted hg)
    hg.link.appKey

/-- A `connect` that does not return leaves the entry as it is. -/
theorem Stores.ungreets (h : Stores start w₀ w entry) (hdown : w.isConnected = false)
    (hu : Ungreets w w') : Stores start w₀ w' entry := by
  apply h.later hu.does
  intro hup hgreeted
  have hno : greeted w'.deeds = false := by
    apply hu.stays _ hup
    intro hup₀
    rw [hdown] at hup₀
    cases hup₀
  rw [hno] at hgreeted
  cases hgreeted

/-- One that returns has its key stored. -/
theorem Stores.completes (h : Stores start w₀ w entry) (hc : CompletesWith w w') :
    Stores start w₀ w' (entry.persisted w'.self.appKey) := by
  obtain ⟨htrace, hkey⟩ := hc
  refine ⟨h.trace.trans htrace, ?_, fun _ _ => rfl⟩
  have hlast : handshakeKey (w₀.newDeeds w') = some w'.self.appKey := by
    rw [World.newDeeds_trans h.trace htrace]
    exact handshakeKey_earlier hkey
  exact (keyAfter_handshake hlast).symm

variable [Cipher κ]

theorem Stores.disconnect (h : Stores start w₀ w entry) :
    Stores start w₀ (Ninebot.disconnect w).2 entry := by
  apply h.later ((disconnect_linkDeeds w).mono (fun o ho => by cases o <;> first | rfl | cases ho))
  intro hup
  rw [World.isConnected, disconnect_detaches] at hup
  cases hup

theorem stores_keeps (start : Option String) (w₀ : World κ) :
    Keeps (Stores start w₀) (Stores start w₀) where
  weaken _ _ h := h
  log w _ _ _ h := h.idle (Idle.log w _ rfl)
  logged w _ _ _ h := h.idle (Idle.log w _ rfl)
  connect w _ h hdown := (connect_completes w).mono (fun _ _ hc => h.completes hc)
    (fun _ _ hu => h.ungreets hdown hu) (fun _ hu => h.ungreets hdown hu)
  poll w _ includeStatic h := Triple.of_last (h.greeting (asyncPoll_greeting includeStatic w))
  drop _ _ h := Triple.of_last h.disconnect

/-- The next process starts without a link, with what the entry holds. -/
theorem setupEntry_stores {home home' : Home κ} {deviceName : Option String}
    (htrace : w₀.trace <:+ home.world.trace)
    (hstored : home.entry.appKey = keyAfter start (w₀.newDeeds home.world))
    (hrun : setupEntry home deviceName = .ok home') : Stores start w₀ home'.world home'.entry := by
  obtain ⟨_, _, rfl⟩ := setupEntry_eq hrun
  refine ⟨htrace, hstored, ?_⟩
  -- The links of the process that ended are down.
  intro hup
  cases hup

theorem between_stores {home home' : Home κ} (h : Stores start w₀ home.world home.entry)
    (hb : Between home home') : Stores start w₀ home'.world home'.entry := by
  cases hb with
  | event e => exact h.idle (Idle.apply e home.world)
  | supply script gas =>
    exact h.same (Does.of_same (List.suffix_refl _) rfl) (Or.inl rfl) (fun _ hup => hup) rfl rfl
  | advertised manufacturerData => exact h

/-- Run lemma: from the start on, through polls, events and restarts. -/
theorem lives_stores {home₀ home : Home κ} (h : Lives home₀ home) :
    Stores home₀.entry.appKey home₀.world home.world home.entry := by
  induction h with
  | setup hrun =>
    apply setupEntry_stores (List.suffix_refl _) _ hrun
    rw [World.newDeeds_self]
    rfl
  | between _ hb ih => exact between_stores ih hb
  | poll _ ih => exact (stores_keeps _ _).coordinatorPoll_last ih
  | restart _ hrun ih => exact setupEntry_stores ih.trace ih.stored hrun

/-! ## A `connect` that does not return -/

/-- Steps that leave the entry alone. -/
def EntryKept (home home' : Home κ) : Prop := home'.entry = home.entry

instance : Std.Refl (EntryKept (κ := κ)) := ⟨fun _ => rfl⟩

instance : IsTrans (Home κ) EntryKept := ⟨fun _ _ _ h h' => h'.trans h⟩

omit [Cipher κ] in
theorem client_keepsEntry {α : Type} (m : M κ α) : Moves EntryKept (H.client m) := by
  intro home
  exact (client_run m home).last (fun _ _ h => h.2.2) (fun _ _ h => h.2.2) (fun _ h => h.2)

omit [Cipher κ] in
theorem mark_keepsEntry (home : Home κ) (e : Exc) (level : LogLevel) (text : String) :
    EntryKept home ((home.flag e).mark level text) := by
  unfold EntryKept Home.mark Home.say Home.flag
  split <;> split <;> rfl

theorem dropConnection_keepsEntry : Moves EntryKept (dropConnection : H κ Unit) :=
  Moves.bind (Moves.attempt (client_keepsEntry disconnect)) fun _ => Moves.pure ()

/-- The key is written only after `connect` has returned: a poll whose
    `connect` raises, or has not returned yet, leaves the entry alone. -/
theorem coordinatorPoll_keepsEntry {home : Home κ} (hdown : home.world.isConnected = false)
    (hconnect : (connect home.world).1 ≠ .ret ()) :
    (coordinatorPoll home).2.entry = home.entry := by
  have hensure : Triple ensureConnected home (fun _ _ => False) (fun _ => EntryKept home)
      (EntryKept home) := by
    apply Triple.get_bind
    simp only [hdown]
    have hclient := (client_run connect home).mono
      (fun _ _ h => hconnect (congrArg Prod.fst h.1)) (fun _ _ h => h.2.2) (fun _ h => h.2)
    exact Triple.bind hclient fun _ _ hfalse => hfalse.elim
  have hupdate : Triple asyncUpdate home (fun _ _ => False) (fun _ => EntryKept home)
      (EntryKept home) :=
    Triple.bind hensure fun _ _ hfalse => hfalse.elim
  have hpoll : Triple coordinatorPoll home (fun _ => EntryKept home) (fun _ => EntryKept home)
      (EntryKept home) := by
    apply coordinatorPoll_triple hupdate
    · intro _ hfalse
      exact hfalse.elim
    · intro e home₁ level text h₁
      have hmarked := trans_of EntryKept h₁ (mark_keepsEntry home₁ e level text)
      exact Triple.of_last (trans_of EntryKept hmarked (dropConnection_keepsEntry _))
  exact Triple.iff_last.mp hpoll

/-- At every moment of every run the entry holds the key that was stored at its
    start, until a handshake is complete, and from then on the key of the last
    one; this is the client's key while a link that was greeted is up; and a
    poll whose `connect` does not return leaves the entry alone. -/
theorem stored_key_follows {home₀ home : Home κ} (h : Lives home₀ home) :
    home.entry.appKey = keyAfter home₀.entry.appKey (home₀.world.newDeeds home.world) ∧
    (home.world.isConnected = true → greeted home.world.deeds = true →
      home.entry.appKey = some (hexLower home.world.self.appKey)) ∧
    (home.world.isConnected = false → (connect home.world).1 ≠ .ret () →
      (coordinatorPoll home).2.entry = home.entry) := by
  have hstores := lives_stores h
  exact ⟨hstores.stored, hstores.inUse, coordinatorPoll_keepsEntry⟩

end Runs

/-- The verification of the first link is lost; the second one is paired with a
    fresh key and verified. -/
def rekeyed : List Step :=
  greetPaired 0 ++ [.answer .ok, .event (.tick 5000), .answer (.fail timerFault),
    .answer .ok, .event (.tick 5000), .answer (.fail timerFault), .answer .ok, .answer .ok] ++
  greetPaired 1 ++ [.answer .ok, respond 1 (readReply .mcu 0x10 serialChallenge), .answer .ok]

def rekeyedHome : Home StubCrypto := (coordinatorPoll (restarted (pairedHome rekeyed))).2

theorem rekeyed_lives : Lives (pairedHome rekeyed) rekeyedHome :=
  Lives.poll (restarted_lives rekeyed)

/-- The fresh key replaces the stored one. -/
theorem rekeyed_stores :
    rekeyedHome.entry.appKey = some (hexLower ((pairedHome rekeyed).world.secrets 1).1) ∧
      rekeyedHome.entry.appKey = some (hexLower rekeyedHome.world.self.appKey) := by
  have hlast : handshakeKey ((pairedHome rekeyed).world.newDeeds rekeyedHome.world) =
      some ((pairedHome rekeyed).world.secrets 1).1 := by decide +kernel
  have hup : rekeyedHome.world.isConnected = true := by decide +kernel
  have hgreeted : greeted rekeyedHome.world.deeds = true := by decide +kernel
  obtain ⟨hstored, hinUse, _⟩ := stored_key_follows rekeyed_lives
  exact ⟨hstored.trans (keyAfter_handshake hlast), hinUse hup hgreeted⟩

end Ninebot
