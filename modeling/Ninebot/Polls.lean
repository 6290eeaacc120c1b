import Ninebot.Coordinator
import Ninebot.FakeScooter
import Ninebot.Reads

/-! # Polls

    What a snapshot says about each register, and what a poll makes of a
    request that cannot be sent.

    A read that comes back short is not noticed: the walk appends whatever
    each word's reply carries, and the decoders accept slices of any length.
    A request that cannot be sent is recorded like a register that the
    scooter lacks, and the poll goes on. -/

namespace Ninebot

open Coro

variable {κ : Type}

/-! ## Snapshots -/

/-- How a register stands in the snapshot of a poll that ran from `w` to `w'`:
    with the value that one read of it returned, or as a failure. -/
def Polled (w w' : World κ) (state : ScooterState) (register : Register) : Prop :=
  (∃ (w₁ w₂ : World κ) (payload : Bytes) (value : Value),
      w.trace <:+ w₁.trace ∧ w₁.trace <:+ w₂.trace ∧ w₂.trace <:+ w'.trace ∧
      ReadResult register w₁ payload w₂ ∧ register.convert payload = .ok value ∧
      state.values.lookup register.key = some value ∧
      state.failures.lookup register.key = none) ∨
    (state.values.lookup register.key = none ∧
      ∃ text, state.failures.lookup register.key = some text)

theorem Polled.later {w w₀ w' : World κ} {state : ScooterState} {register : Register}
    (h : Polled w w' state register) (hw : w₀.trace <:+ w.trace) :
    Polled w₀ w' state register := by
  rcases h with ⟨w₁, w₂, payload, value, h₁, h₂⟩ | h
  · exact Or.inl ⟨w₁, w₂, payload, value, hw.trans h₁, h₂⟩
  · exact Or.inr h

/-- The snapshot says the same about this key. -/
structure SameEntry (state state' : ScooterState) (key : String) : Prop where
  values : state'.values.lookup key = state.values.lookup key
  failures : state'.failures.lookup key = state.failures.lookup key

namespace SameEntry

variable {state state' : ScooterState} {key key' : String}

theorem fail (state : ScooterState) (text : String) (h : key' ≠ key) :
    SameEntry state (state.fail key text) key' :=
  ⟨rfl, Finmap.lookup_insert_of_ne _ h⟩

theorem decoded (state : ScooterState) (payload : Bytes) (value : Value) (h : key' ≠ key) :
    SameEntry state ((state.record key payload).decoded key value) key' :=
  ⟨Finmap.lookup_insert_of_ne _ h, rfl⟩

theorem trans {state'' : ScooterState} (h : SameEntry state state' key)
    (h' : SameEntry state' state'' key) : SameEntry state state'' key :=
  ⟨h'.values.trans h.values, h'.failures.trans h.failures⟩

end SameEntry

/-- What the loop makes of the registers that are left. -/
structure PollResult (registers : List Register) (w : World κ) (state : ScooterState)
    (state' : ScooterState) (w' : World κ) : Prop where
  trace : w.trace <:+ w'.trace
  polled : ∀ register ∈ registers, Polled w w' state' register
  frame : ∀ key, key ∉ registers.map (·.key) → SameEntry state state' key

/-- The registers of one poll have different keys, and none is in the snapshot yet. -/
structure Unread (registers : List Register) (state : ScooterState) : Prop where
  nodup : (registers.map (·.key)).Nodup
  values : ∀ register ∈ registers, state.values.lookup register.key = none
  failures : ∀ register ∈ registers, state.failures.lookup register.key = none

theorem Unread.tail {register : Register} {rest : List Register} {state state' : ScooterState}
    (h : Unread (register :: rest) state)
    (hframe : ∀ key, key ≠ register.key → SameEntry state state' key) : Unread rest state' := by
  have hne : ∀ r ∈ rest, r.key ≠ register.key := by
    intro r hr heq
    have hnot := (List.nodup_cons.mp h.nodup).1
    exact hnot (List.mem_map.mpr ⟨r, hr, heq⟩)
  refine ⟨(List.nodup_cons.mp h.nodup).2, ?_, ?_⟩
  · intro r hr
    rw [(hframe r.key (hne r hr)).values]
    exact h.values r (List.mem_cons_of_mem _ hr)
  · intro r hr
    rw [(hframe r.key (hne r hr)).failures]
    exact h.failures r (List.mem_cons_of_mem _ hr)

/-- One register, then the rest. -/
theorem PollResult.cons {register : Register} {rest : List Register} {w w₁ w' : World κ}
    {state state₁ state' : ScooterState} (hw : w.trace <:+ w₁.trace)
    (hnodup : ((register :: rest).map (·.key)).Nodup)
    (hframe : ∀ key, key ≠ register.key → SameEntry state state₁ key)
    (hhead : SameEntry state₁ state' register.key → w₁.trace <:+ w'.trace →
      Polled w w' state' register)
    (h : PollResult rest w₁ state₁ state' w') :
    PollResult (register :: rest) w state state' w' := by
  refine ⟨hw.trans h.trace, ?_, ?_⟩
  · intro r hr
    rcases List.mem_cons.mp hr with rfl | hr
    · exact hhead (h.frame _ (List.nodup_cons.mp hnodup).1) h.trace
    · exact (h.polled r hr).later hw
  · intro key hkey
    simp only [List.map_cons, List.mem_cons, not_or] at hkey
    exact (hframe key hkey.1).trans (h.frame key hkey.2)

variable [Cipher κ]

theorem pollLoop_result (registers : List Register) (state : ScooterState) (timeouts : Nat)
    (w : World κ) (hun : Unread registers state) :
    Triple (pollLoop registers state timeouts) w (PollResult registers w state)
      (fun _ _ => True) (fun _ => True) := by
  induction registers generalizing state timeouts w with
  | nil => exact Triple.pure ⟨List.suffix_refl _, by simp, fun _ _ => ⟨rfl, rfl⟩⟩
  | cons register rest ih =>
    have hread : Triple (readRegister register) w
        (fun payload w₁ => w.trace <:+ w₁.trace ∧ ReadResult register w payload w₁)
        (fun e w₁ => if e.isInstance [.ninebotError] then w.trace <:+ w₁.trace else True)
        (fun _ => True) := by
      have hmoves : Moves SameSession (readRegister register : M κ Bytes) :=
        readRegister_moves (fun _ => SameSession.asks.request _ _)
          fun _ => SameSession.asks.request _ _
      refine ((readRegister_result register w).and (hmoves.triple w)).mono
        (fun _ _ h => ⟨h.2.trace, h.1⟩) ?_ (fun _ _ => trivial)
      intro e w₁ h
      split
      · exact h.2.trace
      · trivial
    -- A failure is recorded and stands in the snapshot at the end.
    have hfail : ∀ state₀ : ScooterState, (∀ key, SameEntry state state₀ key) →
        ∀ (w₁ : World κ), w.trace <:+ w₁.trace → ∀ text n,
        Triple (pollLoop rest (state₀.fail register.key text) n) w₁
          (PollResult (register :: rest) w state) (fun _ _ => True) (fun _ => True) := by
      intro state₀ hsame₀ w₁ htrace text n
      have hframe : ∀ key, key ≠ register.key →
          SameEntry state (state₀.fail register.key text) key :=
        fun key hkey => (hsame₀ key).trans (SameEntry.fail state₀ text hkey)
      apply (ih _ n w₁ (hun.tail hframe)).mono_ret
      intro state' w' h
      apply h.cons htrace hun.nodup hframe
      intro hsame _
      refine Or.inr ⟨?_, text, ?_⟩
      · rw [hsame.values]
        exact (hsame₀ _).values.trans (hun.values register List.mem_cons_self)
      · rw [hsame.failures]
        exact Finmap.lookup_insert _
    apply pollLoop_cons hread
    · intro e w₁ n htrace
      exact hfail state (fun _ => ⟨rfl, rfl⟩) w₁ htrace _ _
    · exact fun _ _ _ _ => trivial
    · intro payload value w₁ hread hc
      have hframe : ∀ key, key ≠ register.key →
          SameEntry state ((state.record register.key payload).decoded register.key value) key :=
        fun key hkey => SameEntry.decoded state payload value hkey
      apply (ih _ 0 w₁ (hun.tail hframe)).mono_ret
      intro state' w' h
      apply h.cons hread.1 hun.nodup hframe
      intro hsame hlater
      refine Or.inl ⟨w, w₁, payload, value, List.suffix_refl _, hread.1, hlater, hread.2, hc, ?_,
        ?_⟩
      · rw [hsame.values]
        exact Finmap.lookup_insert _
      · rw [hsame.failures]
        exact hun.failures register List.mem_cons_self
    · intro payload e w₁ hread _
      exact hfail (state.record register.key payload) (fun _ => ⟨rfl, rfl⟩) w₁ hread.1 _ _
    · exact fun _ _ _ _ _ _ => trivial

theorem pollRegisters_nodup (includeStatic : Bool) :
    ((pollRegisters includeStatic).map (·.key)).Nodup := by
  cases includeStatic <;> decide

/-- The snapshot of a poll accounts for every register that it reads. -/
theorem asyncPoll_result (includeStatic : Bool) (w : World κ) :
    Triple (asyncPoll includeStatic) w
      (fun state w' => ∀ register ∈ pollRegisters includeStatic, Polled w w' state register)
      (fun _ _ => True) (fun _ => True) := by
  unfold Triple
  rw [asyncPoll, get_bind]
  by_cases hc : w.isConnected
  · simp only [hc, if_true]
    have hun : Unread (pollRegisters includeStatic) {} :=
      ⟨pollRegisters_nodup includeStatic, fun _ _ => rfl, fun _ _ => rfl⟩
    exact (pollLoop_result _ _ 0 w hun).mono (fun _ _ h => h.polled) (fun _ _ h => h)
      (fun _ h => h)
  · simp only [hc]
    trivial

/-! ## Short reads -/

/-- A read raises, or returns all of the register exactly when the replies
    cover it; a poll lists each register either with the value of one such
    read or as a failure. -/
theorem reads_complete_iff_covered :
    (∀ (register : Register) (w : World κ), Triple (readRegister register) w
      (ReadResult register w) (fun _ _ => True) (fun _ => True)) ∧
    ∀ (includeStatic : Bool) (w : World κ), Triple (asyncPoll includeStatic) w
      (fun state w' => ∀ register ∈ pollRegisters includeStatic, Polled w w' state register)
      (fun _ _ => True) (fun _ => True) :=
  ⟨readRegister_result, asyncPoll_result⟩

/-- The first register of every poll. -/
def errorCode : Register := { key := "error_code", board := .mcu, index := 0x1B, length := 2 }

/-- The scooter answers two reads of a register with no data; then the link is lost. -/
def emptyReplies : List Step :=
  let empty := [.answer .ok, respond 0 (readReply .mcu 0x1B []), .answer .ok]
  empty ++ empty ++ [.event (.linkLost 0), .answer (.fail linkFault)]

/-- No byte of the register was received, yet the read returns and the poll
    records its value as zero. -/
theorem emptyReplies_recorded :
    registersByKey "error_code" = .ok errorCode ∧
    (readRegister errorCode (World.online (fakeClient none) emptyReplies)).1 = .ret [] ∧
    ((asyncPoll false (World.online (fakeClient none) emptyReplies)).1.value?.map fun state =>
      (state.raw.lookup "error_code", state.get "error_code", state.failures.lookup "error_code"))
        = some (some "", some (.int 0), none) :=
  ⟨rfl, by decide +kernel, by decide +kernel⟩

/-! ## Requests that cannot be sent -/

def Obs.isSendFailed : Obs → Bool
  | .sendFailed _ => true
  | _ => false

/-- Between `w` and `w'` a frame was sent, and no request failed to be sent after it. -/
def Recovered (w w' : World κ) : Prop :=
  ∃ newer frame older, w'.deeds = newer ++ frame :: older ∧ w.deeds <:+ older ∧
    frame.isSent = true ∧ ∀ o ∈ newer, o.isSendFailed = false

omit [Cipher κ] in
theorem Recovered.since {w₀ w w' : World κ} (h : Recovered w w') (hw : w₀.trace <:+ w.trace) :
    Recovered w₀ w' := by
  obtain ⟨newer, frame, older, hdeeds, hold, hsent, hnewer⟩ := h
  exact ⟨newer, frame, older, hdeeds, (World.deeds_suffix hw).trans hold, hsent, hnewer⟩

/-- Exceptions that abort a poll, or count towards aborting it. -/
def Aborts (e : Exc) : Prop :=
  e.isInstance [.ninebotTimeoutError] = true ∨ e.isInstance [.ninebotError] = false

omit [Cipher κ] in
theorem not_aborts {e : Exc}
    (h : e.cls = .ninebotConnectionError ∨ e.cls = .ninebotProtocolError) : ¬ Aborts e := by
  obtain ⟨cls, msg⟩ := e
  unfold Aborts
  rcases h with h | h <;> cases h <;> simp [Exc.isInstance, ErrorClass.mro]

omit [Cipher κ] in
theorem Packet.pack_error {p : Packet} {e : Exc} (h : p.pack = .error e) :
    e.cls = .ninebotProtocolError := by
  unfold pack at h
  split at h <;> cases h
  rfl

/-- A request that is answered, or that raises anything but a connection or
    protocol error, has sent its frame. -/
theorem request_recovered (p : Packet) (t : Option Nat) (w : World κ) :
    Triple (request p t) w (fun _ w' => Recovered w w') (fun e w' => Aborts e → Recovered w w')
      (fun _ => True) := by
  have h := request_ends p t w
  unfold Triple
  generalize request p t w = out at h ⊢
  obtain ⟨res, w'⟩ := out
  cases h with
  | refused hsend =>
    intro haborts
    cases hsend with
    | down _ hcls _ => exact absurd haborts (not_aborts (Or.inl hcls))
    | tooLong hpack _ => exact absurd haborts (not_aborts (Or.inr (Packet.pack_error hpack)))
    | failed _ hcls _ => exact absurd haborts (not_aborts (Or.inl hcls))
    | foreign _ _ hd => exact ⟨[], _, _, hd, List.suffix_refl _, rfl, by simp⟩
  | waiting _ _ => trivial
  | unanswered _ _ hd =>
    intro _
    exact ⟨[_], _, _, hd, List.suffix_refl _, rfl, by simp [Obs.isSendFailed]⟩
  | answered _ _ _ hd =>
    exact ⟨[_], _, _, hd, List.suffix_refl _, rfl, by simp [Obs.isSendFailed]⟩

/-- A walk that starts after a frame was sent ends after a frame was sent. -/
theorem walk_recovered (register : Register) (words : List Nat) (payload : Bytes) {w₀ w : World κ}
    (hw : w₀.trace <:+ w.trace) (h : Recovered w₀ w) :
    Triple (walk register words payload) w (fun _ w' => Recovered w₀ w')
      (fun e w' => Aborts e → Recovered w₀ w') (fun _ => True) := by
  induction words generalizing payload w with
  | nil => exact Triple.pure h
  | cons word rest ih =>
    have hreq : Triple (request (readRequest register word 2)) w
        (fun _ w₁ => Recovered w w₁ ∧ w.trace <:+ w₁.trace)
        (fun e w₁ => Aborts e → Recovered w₀ w₁) (fun _ => True) :=
      ((request_recovered _ none w).and ((SameSession.asks.request _ none).triple w)).mono
        (fun _ _ h => ⟨h.1, h.2.trace⟩) (fun _ _ h ha => (h.1 ha).since hw) (fun _ _ => trivial)
    apply Triple.bind hreq
    intro response w₁ h₁
    exact ih _ (hw.trans h₁.2) (h₁.1.since hw)

theorem readRegister_recovered {register : Register} (hlen : register.length < 256)
    (w : World κ) :
    Triple (readRegister register) w (fun _ w' => Recovered w w')
      (fun e w' => Aborts e → Recovered w w') (fun _ => True) := by
  have hwalk : ∀ w₁ : World κ, Recovered w w₁ → w.trace <:+ w₁.trace →
      Triple (walkRegister register) w₁ (fun _ w' => Recovered w w')
        (fun e w' => Aborts e → Recovered w w') (fun _ => True) := by
    intro w₁ h hw
    exact Triple.bind (walk_recovered register _ _ hw h) fun _ _ h => Triple.pure h
  refine readRegister_triple (T := fun w₁ => Recovered w w₁ ∧ w.trace <:+ w₁.trace) ?_
    fun w₁ h => hwalk w₁ h.1 h.2
  unfold bulkRead
  rw [if_pos hlen]
  refine ((request_recovered _ none w).and ((SameSession.asks.request _ none).triple w)).mono
    ?_ ?_ (fun _ _ => trivial)
  · intro r w₁ h
    split
    · exact h.1
    · exact ⟨h.1, h.2.trace⟩
  · intro e w₁ h
    split
    · next he => exact ⟨h.1 (Or.inl he.1), h.2.trace⟩
    · exact h.1

/-- A poll that raises has sent a frame after the last request that failed to be sent. -/
theorem pollLoop_recovered (registers : List Register) (hlen : ∀ r ∈ registers, r.length < 256)
    (state : ScooterState) (timeouts : Nat) (w : World κ) :
    Triple (pollLoop registers state timeouts) w (fun _ _ => True)
      (fun _ w' => Recovered w w') (fun _ => True) := by
  induction registers generalizing state timeouts w with
  | nil => exact Triple.pure trivial
  | cons register rest ih =>
    have hread : Triple (readRegister register) w
        (fun _ w₁ => w.trace <:+ w₁.trace ∧ Recovered w w₁)
        (fun e w₁ => if e.isInstance [.ninebotError]
          then w.trace <:+ w₁.trace ∧ (Aborts e → Recovered w w₁) else Recovered w w₁)
        (fun _ => True) := by
      have hmoves : Moves SameSession (readRegister register : M κ Bytes) :=
        readRegister_moves (fun _ => SameSession.asks.request _ _)
          fun _ => SameSession.asks.request _ _
      refine ((readRegister_recovered (hlen register List.mem_cons_self) w).and
        (hmoves.triple w)).mono (fun _ _ h => ⟨h.2.trace, h.1⟩) ?_ (fun _ _ => trivial)
      intro e w₁ h
      by_cases he : e.isInstance [.ninebotError]
      · rw [if_pos he]
        exact ⟨h.2.trace, h.1⟩
      · rw [if_neg he]
        exact h.1 (Or.inr (by simpa using he))
    -- What the rest sends is sent after what this register has sent.
    have hrest : ∀ state n (w₁ : World κ), w.trace <:+ w₁.trace →
        Triple (pollLoop rest state n) w₁ (fun _ _ => True) (fun _ w' => Recovered w w')
          (fun _ => True) := by
      intro state n w₁ hw
      exact (ih (fun r hr => hlen r (List.mem_cons_of_mem _ hr)) state n w₁).mono
        (fun _ _ h => h) (fun _ _ h => h.since hw) (fun _ h => h)
    apply pollLoop_cons hread
    · exact fun _ w₁ _ h => hrest _ _ w₁ h.1
    · -- The third timeout in a row: its frame was sent.
      exact fun _ _ h htime => h.2 (Or.inl htime)
    · exact fun _ _ w₁ h _ => hrest _ _ w₁ h.1
    · exact fun _ _ w₁ h _ => hrest _ _ w₁ h.1
    · exact fun _ _ _ h _ _ => h.2

/-- A request that could not be sent ends the poll with a connection error,
    and no frame is sent after it. -/
def FailsFast (res : Res Exc ScooterState) (new : List Obs) : Prop :=
  ∀ newer p older, new = newer ++ .sendFailed p :: older →
    (∃ e, res = .raised e ∧ e.cls = .ninebotConnectionError) ∧ ∀ o ∈ newer, o.isSent = false

omit [Cipher κ] in
/-- What was sent last did not fail, so what failed was not last. -/
theorem Recovered.not_failsFast {w w' : World κ} (h : Recovered w w') {p : Packet}
    (hp : .sendFailed p ∈ w.newDeeds w') (res : Res Exc ScooterState) :
    ¬ FailsFast res (w.newDeeds w') := by
  obtain ⟨newer, frame, older, hdeeds, ⟨mid, rfl⟩, hsent, hnewer⟩ := h
  have hnew : w.newDeeds w' = newer ++ frame :: mid := by
    apply World.newDeeds_eq _
    rw [hdeeds, List.append_assoc]
    rfl
  rw [hnew] at hp ⊢
  intro hfast
  rcases List.mem_append.mp hp with hp | hp
  · exact absurd (hnewer _ hp) (by simp [Obs.isSendFailed])
  · rcases List.mem_cons.mp hp with rfl | hp
    · cases hsent
    · obtain ⟨before, after, rfl⟩ := List.append_of_mem hp
      have hlast := (hfast (newer ++ frame :: before) p after (by simp)).2 frame (by simp)
      rw [hsent] at hlast
      cases hlast

/-- What a snapshot does to the coordinator: its poll succeeded, and the link stays. -/
theorem coordinatorPoll_of_snapshot {home : Home κ} {state : ScooterState} {w' : World κ}
    (hc : home.world.isConnected = true)
    (hpoll : asyncPoll (decide (home.coordinator.state.values = ∅)) home.world = (.ret state, w')) :
    (coordinatorPoll home).2.coordinator.lastPollSuccessful = true ∧
      (coordinatorPoll home).2.world.self.client = w'.self.client := by
  have hupdate : ∃ home', asyncUpdate home = (.ret (), home') ∧ home'.world = w' := by
    have hensure : ensureConnected home =
        (.ret (decide (home.coordinator.state.values = ∅)), home) := by
      rw [ensureConnected, get_bind]
      simp only [hc, if_true]
      rfl
    have hclient : H.client (asyncPoll (decide (home.coordinator.state.values = ∅))) home =
        (.ret state, { home with world := w' }) := by
      rw [H.client, zoom, hpoll]
    rw [asyncUpdate, bind_of_ret hensure, bind_of_ret hclient]
    by_cases hfirst : home.coordinator.state.values = ∅
    · simp only [hfirst, decide_true, if_true]
      exact ⟨_, rfl, rfl⟩
    · simp only [hfirst, decide_false]
      exact ⟨_, rfl, rfl⟩
  -- What is left is to say that the poll was successful.
  obtain ⟨home', hrun, rfl⟩ := hupdate
  rw [coordinatorPoll, bind_of_ret (attempt_of_ret hrun)]
  dsimp only
  rw [get_bind]
  by_cases hlast : home'.coordinator.lastPollSuccessful
  · simp only [hlast, if_true]
    exact ⟨hlast, rfl⟩
  · simp only [hlast]
    exact ⟨rfl, rfl⟩

/-- A poll that ends reacts to a request that cannot be sent in no case but
    the one in which every request is sent; a coordinator whose poll returned
    a snapshot counts it as a success, whatever failed, and keeps the link. -/
theorem asyncPoll_failsFast_iff :
    (∀ (includeStatic : Bool) (w : World κ), Triple (asyncPoll includeStatic) w
      (fun state w' => FailsFast (.ret state) (w.newDeeds w') ↔
        ∀ o ∈ w.newDeeds w', o.isSendFailed = false)
      (fun e w' => FailsFast (.raised e) (w.newDeeds w') ↔
        ∀ o ∈ w.newDeeds w', o.isSendFailed = false)
      (fun _ => True)) ∧
    ∀ (home : Home κ) (state : ScooterState) (w' : World κ), home.world.isConnected = true →
      asyncPoll (decide (home.coordinator.state.values = ∅)) home.world = (.ret state, w') →
      (coordinatorPoll home).2.coordinator.lastPollSuccessful = true ∧
        (coordinatorPoll home).2.world.self.client = w'.self.client := by
  -- Where nothing failed there is nothing to react to.
  have hquiet : ∀ {res : Res Exc ScooterState} {new : List Obs},
      (∀ o ∈ new, o.isSendFailed = false) → FailsFast res new := by
    intro res new hnone newer p older heq
    have hfalse := hnone (.sendFailed p) (by rw [heq]; simp)
    cases hfalse
  have hfailed : ∀ {new : List Obs}, (¬ ∀ o ∈ new, o.isSendFailed = false) →
      ∃ p, Obs.sendFailed p ∈ new := by
    intro new h
    simp only [not_forall] at h
    obtain ⟨o, ho, hfail⟩ := h
    cases o <;> simp [Obs.isSendFailed] at hfail
    exact ⟨_, ho⟩
  refine ⟨?_, fun home state w' hc hpoll => coordinatorPoll_of_snapshot hc hpoll⟩
  intro includeStatic w
  unfold Triple
  rw [asyncPoll, get_bind]
  by_cases hc : w.isConnected
  · simp only [hc, if_true]
    have hlen : ∀ r ∈ pollRegisters includeStatic, r.length < 256 := by
      cases includeStatic <;> decide
    refine (pollLoop_recovered _ hlen {} 0 w).mono ?_ ?_ (fun _ h => h)
    · intro state w' _
      refine ⟨fun hfast => ?_, hquiet⟩
      by_contra hnone
      obtain ⟨p, hp⟩ := hfailed hnone
      obtain ⟨newer, older, heq⟩ := List.append_of_mem hp
      obtain ⟨e, he, _⟩ := (hfast newer p older heq).1
      cases he
    · intro e w' hrec
      refine ⟨fun hfast => ?_, hquiet⟩
      by_contra hnone
      obtain ⟨p, hp⟩ := hfailed hnone
      exact hrec.not_failsFast hp _ hfast
  · simp only [hc]
    have hnone : ∀ o ∈ w.newDeeds w, o.isSendFailed = false := by simp [World.newDeeds_self]
    exact ⟨fun _ => hnone, hquiet⟩

/-- The link is lost while the first register is read. -/
def lostLink : List Step := [.event (.linkLost 0), .answer (.fail linkFault)]

def lostHome : Home StubCrypto where
  world := World.online (fakeClient none) lostLink
  entry := ⟨"Scooter", "C0:FF:EE:00:00:01", none, none⟩
  coordinator := { Coordinator.make "C0:FF:EE:00:00:01" "Scooter" with
    state := { values := Finmap.singleton "speed" (.int 0) } }

/-- Every register of the poll failed, yet the poll returns a snapshot, and
    the coordinator takes it for a success and keeps the dead link. -/
theorem lostLink_snapshot :
    ((asyncPoll false lostHome.world).1.value?.map fun state =>
      dynamicRegisters.map fun r => state.failures.lookup r.key)
        = some (dynamicRegisters.map fun r =>
          some (if r.key = "error_code" then "Write failed: Not connected" else "Not connected")) ∧
    .sendFailed (readRequest errorCode 0 2) ∈ (asyncPoll false lostHome.world).2.trace ∧
    (coordinatorPoll lostHome).2.coordinator.lastPollSuccessful = true ∧
    (coordinatorPoll lostHome).2.world.self.client = some 0 ∧
    (coordinatorPoll lostHome).2.world.isConnected = false :=
  ⟨by decide +kernel, by decide +kernel, by decide +kernel, by decide +kernel,
    by decide +kernel⟩

end Ninebot
