import Ninebot.TwinMethods

/-! # Connecting under different keys

    PING carries the key.  It is the one request of a connect whose text the
    key can get into, and `connect` makes it at most twice.

    This file defines:
    - `pingLapses`: the deadline of a handshake's PING is noticed at the top of
      the loop
    - `connectLapses`: that happens in one of the attempts of a connect -/

namespace Ninebot

open Coro

variable {κ α : Type} [Cipher κ]

/-! ## The handshake -/

/-- What `_handshake` does after the reply to PING. -/
def afterPing (ping : Packet) : M κ Unit := do
  if ping.index = 0 then awaitPairing
  Coro.modify World.setAppData
  let _ ← request (pairRequest (← Coro.get).self.serialChallenge)
  verifySession
  M.log (.handshaken (← Coro.get).self.client)

/-- Is the deadline of PING noticed at the top of its loop, in a handshake from `w`? -/
def pingLapses (w : World κ) : Bool :=
  returns (request initRequest) (fun init w₁ =>
    decide (appKeyLength ≤ init.data.length) &&
      requestLapses (pingRequest w₁.self.appKey) none (w₁.setBleData init.data)) w

omit [Cipher κ] in
theorem Twin.sameButKey {w w' : World κ} (h : Twin w w') :
    SameButKey (pingRequest w.self.appKey) (pingRequest w'.self.appKey) :=
  ⟨rfl, h.keyLength⟩

omit [Cipher κ] in
theorem parallel_setBleData (init : Bytes) :
    Parallel (Twin (κ := κ)) (·.setBleData init) (·.setBleData init) := by
  have hshows : Shows (κ := κ)
      (fun b => { b with self := { b.self with serialChallenge := init.drop appKeyLength } })
      (·.setBleData init) := ⟨fun _ => rfl, fun _ _ => rfl, fun _ => rfl⟩
  exact hshows.alone

section Handshake

variable (hκ : Cipher.Lengthens κ)
include hκ

theorem twinned_afterPing (ping : Packet) :
    Twinned (afterPing ping : M κ Unit) (afterPing ping) := by
  have hclose : Twinned ((do
      Coro.modify World.setAppData
      let _ ← request (pairRequest (← Coro.get).self.serialChallenge)
      verifySession
      M.log (.handshaken (← Coro.get).self.client)) : M κ Unit) (do
      Coro.modify World.setAppData
      let _ ← request (pairRequest (← Coro.get).self.serialChallenge)
      verifySession
      M.log (.handshaken (← Coro.get).self.client)) := by
    -- The session key is made of the app key, and shows in nothing.
    have hshows : Shows (κ := κ) id World.setAppData :=
      ⟨fun _ => rfl, fun _ _ => rfl, fun _ => rfl⟩
    apply Alike.modify_bind (hshows.alone)
    apply Alike.get_bind (fun _ _ => rfl) (fun _ _ => rfl)
    intro w w' hw
    have hchallenge : w'.self.serialChallenge = w.self.serialChallenge :=
      hw.read (·.self.serialChallenge)
    rw [hchallenge]
    apply Alike.bind (twinned_request hκ _ _)
    intro _
    apply Alike.bind (twinned_verifySession hκ)
    intro _
    apply Alike.get_bind (fun _ _ => rfl) (fun _ _ => rfl)
    intro w w' hw
    rw [hw.client]
    exact twinned_log rfl
  unfold afterPing
  by_cases hzero : ping.index = 0
  · simp only [hzero, if_true]
    exact Alike.bind (twinned_awaitPairing hκ) fun _ => hclose
  · simp only [hzero, if_false]
    exact hclose

theorem handshake_reads : Reads (handshake : M κ Unit) := by
  apply Reads.bind (request_reads hκ _ _)
  intro init
  by_cases hshort : init.data.length < appKeyLength
  · rw [if_pos hshort]
    exact Reads.raise _
  · rw [if_neg hshort]
    apply Reads.bind (Reads.modify (parallel_setBleData init.data).free)
    intro _
    apply Reads.get_bind (fun _ _ => rfl)
    intro w
    apply Reads.bind (request_reads hκ _ _)
    exact fun ping => (twinned_afterPing hκ ping).reads

/-- Two handshakes, unless the deadline of PING is noticed where its text is used. -/
theorem handshake_couples {w w' : World κ} (hw : Twin w w') (htime : pingLapses w = false) :
    Couples Twin World.packets (handshake : M κ Unit) handshake w w' := by
  apply (twinned_request hκ _ _).bind_couples hw
  intro init w₁ w₁' hrun hw₁
  by_cases hshort : init.data.length < appKeyLength
  · rw [if_pos hshort]
    exact Couples.raise hw₁ _
  · rw [if_neg hshort]
    have hping : requestLapses (pingRequest w₁.self.appKey) none
        (w₁.setBleData init.data) = false := by
      rw [pingLapses, returns_of_ret hrun, decide_eq_true (Nat.le_of_not_lt hshort)] at htime
      exact htime
    have hw₂ := (parallel_setBleData init.data).keeps w₁ w₁' hw₁
    apply Couples.modify_bind (fun _ => rfl) (fun _ => rfl)
    apply Couples.get_bind (fun _ => rfl) (fun _ => rfl)
    apply Couples.bind hw₂ (request_reads hκ _ _) (request_reads hκ _ _)
    · exact request_couples hκ hw₂.sameButKey hw₂ (Or.inr hping)
    · intro ping w₃ w₃' _ _ hw₃
      exact (twinned_afterPing hκ ping).couples w₃ w₃' hw₃

end Handshake

/-! ## Links -/

theorem twinned_disconnect : Twinned (disconnect : M κ Unit) disconnect := by
  have hstop : ∀ l, Twinned (stopNotify l : M κ Unit) (stopNotify l) := by
    intro l
    apply twinned_awaitCall
    · exact (Shows.subscribe l false).alone
    · exact fun e => (Shows.log rfl).alone
  have hclose : ∀ l, Twinned (closeLink l : M κ Unit) (closeLink l) := by
    intro l
    have hshows : Shows (κ := κ) (fun b => (b.close l).log (.disconnected l))
        (fun w => (w.close l).log (.disconnected l)) :=
      ⟨fun _ => rfl, fun _ _ => rfl, fun _ => rfl⟩
    apply twinned_awaitCall (hshows.alone)
    exact fun e => (Shows.log rfl).alone
  apply Alike.get_bind (fun _ _ => rfl) (fun _ _ => rfl)
  intro w w' hw
  apply Alike.modify_bind ((Shows.setClient none).alone)
  -- The links are the same in both runs.
  rw [hw.client]
  cases w.self.client with
  | none => exact Alike.pure ()
  | some l =>
    dsimp only
    rw [hw.isUp l]
    apply Alike.bind (twinned_log rfl)
    intro _
    by_cases hup : w.isUp l
    · rw [if_pos hup]
      apply Alike.bind (hstop l).attempt
      intro _
      exact Alike.bind (hclose l).attempt fun _ => Alike.pure ()
    · rw [if_neg hup]
      exact Alike.pure ()

omit [Cipher κ] in
theorem twinned_getRxCharacteristic :
    Twinned (getRxCharacteristic : M κ (Option Nat)) getRxCharacteristic := by
  apply Alike.get_bind (fun _ _ => rfl) (fun _ _ => rfl)
  intro w w' hw
  rw [hw.client]
  cases w.self.client with
  | none => exact Alike.raise _
  | some l =>
    dsimp only
    rw [hw.links]
    cases (w.links l).rx with
    | raises f => exact Alike.raise f.1
    | missing => exact Alike.pure none
    | found size => exact Alike.pure (some size)

theorem twinned_connectTransport : Twinned (connectTransport : M κ Unit) connectTransport := by
  have hreset : Shows (κ := κ) (fun b => (b.setResponses []).log .cleared) World.resetTransport :=
    ⟨fun _ => rfl, fun _ _ => rfl, fun _ => rfl⟩
  have hstart : ∀ l, Twinned (startNotify l : M κ Unit) (startNotify l) := by
    intro l
    apply twinned_awaitCall
    · exact (Shows.subscribe l true).alone
    · exact fun e => (Shows.log rfl).alone
  apply Alike.modify_bind (hreset.alone)
  apply Alike.attempt_bind
  · apply Alike.bind twinned_establishConnection
    intro l
    apply Alike.modify_bind ((Shows.setClient (some l)).alone)
    exact hstart l
  · intro _
    apply Alike.bind twinned_getRxCharacteristic
    intro size
    cases size with
    | none => exact Alike.bind twinned_disconnect fun _ => Alike.raise _
    | some size =>
      have hchunk : Shows (κ := κ) (fun b => { b with self := { b.self with
            chunkSize := if size = 0 then defaultChunkSize else size } })
          (fun w => { w with self := { w.self with
            chunkSize := if size = 0 then defaultChunkSize else size } }) :=
        ⟨fun _ => rfl, fun _ _ => rfl, fun _ => rfl⟩
      exact Alike.modify (hchunk.alone)
  · intro err
    apply Alike.modify_bind ((Shows.setClient none).alone)
    exact Alike.raise _

/-! ## Both attempts -/

/-- Is the deadline of PING noticed at the top of its loop, in the second
    attempt of a connect whose first handshake begins at `w`? -/
def retryLapses (w : World κ) : Bool :=
  returns (attempt (·.isInstance [.ninebotAuthError]) handshake) (fun r w₁ =>
    match r with
    | .ok _ => false
    | .error _ => w₁.self.appKeyWasSupplied && returns (do
        disconnect
        connectTransport) (fun _ w₂ => pingLapses w₂) w₁.discarded) w

/-- Is the deadline of a PING noticed at the top of its loop, in a connect from `w`? -/
def connectLapses (w : World κ) : Bool :=
  returns connectTransport (fun _ w₁ => pingLapses w₁ || retryLapses w₁) w

omit [Cipher κ] in
/-- Whatever the keys were, the fresh ones have the same length. -/
theorem parallel_discarded : Parallel (Twin (κ := κ)) World.discarded World.discarded where
  free _ _ := rfl
  free' _ _ := rfl
  keeps w w' hw := by
    have hkey : ∀ w : World κ, w.discarded.self.appKey.length = appKeyLength := fun w =>
      (w.secrets w.drawn).2
    refine ⟨?_, hw.script, by rw [hkey, hkey]⟩
    have hblur : ∀ w : World κ, w.discarded.blur =
        { w.blur.log (.log .info (w.blur.self.name ++ ": " ++
          "stored pairing key rejected, re-pairing from scratch")) with
          self := { w.blur.self with appKeyWasSupplied := false }
          drawn := w.blur.drawn + 1 } := fun _ => rfl
    rw [hblur, hblur, hw.blur]

section Connect

variable (hκ : Cipher.Lengthens κ)
include hκ

theorem connectAgain_reads : Reads (connectAgain : M κ Unit) := by
  apply Reads.bind twinned_disconnect.reads
  intro _
  apply Reads.bind twinned_connectTransport.reads
  exact fun _ => handshake_reads hκ

theorem connectAgain_couples {w w' : World κ} (hw : Twin w w')
    (htime : returns (do
      disconnect
      connectTransport) (fun _ w₁ => pingLapses w₁) w = false) :
    Couples Twin World.packets (connectAgain : M κ Unit) connectAgain w w' := by
  apply twinned_disconnect.bind_couples hw
  intro _ w₁ w₁' hrun₁ hw₁
  apply twinned_connectTransport.bind_couples hw₁
  intro _ w₂ w₂' hrun₂ hw₂
  apply handshake_couples hκ hw₂
  rwa [returns_of_ret ((bind_of_ret hrun₁).trans hrun₂)] at htime

theorem connect_reads : Reads (connect : M κ Unit) := by
  apply Reads.bind twinned_connectTransport.reads
  intro _
  apply Reads.bind (Reads.attempt (handshake_reads hκ))
  intro r
  cases r with
  | ok _ => exact Reads.pure ()
  | error err =>
    apply Reads.get_bind (fun _ _ => rfl)
    intro w
    by_cases hsupplied : w.self.appKeyWasSupplied
    · rw [if_pos hsupplied]
      apply Reads.bind (Reads.modify (parallel_discarded (κ := κ)).free)
      exact fun _ => connectAgain_reads hκ
    · rw [if_neg hsupplied]
      exact Reads.raise err

/-- Two connects under different keys, unless a PING lapses. -/
theorem connect_couples {w w' : World κ} (hw : Twin w w') (htime : connectLapses w = false) :
    Couples Twin World.packets (connect : M κ Unit) connect w w' := by
  apply twinned_connectTransport.bind_couples hw
  intro _ w₁ w₁' hrun₁ hw₁
  rw [connectLapses, returns_of_ret hrun₁, Bool.or_eq_false_iff] at htime
  obtain ⟨hfirst, hsecond⟩ := htime
  have hreads : Reads (attempt (·.isInstance [.ninebotAuthError]) (handshake : M κ Unit)) :=
    Reads.attempt (handshake_reads hκ)
  apply Couples.bind hw₁ hreads hreads (Couples.attempt (handshake_couples hκ hw₁ hfirst))
  intro r w₂ w₂' hrun₂ _ hw₂
  cases r with
  | ok _ => exact Couples.pure hw₂ ()
  | error err =>
    have hsame : w₂'.self.appKeyWasSupplied = w₂.self.appKeyWasSupplied :=
      hw₂.read (·.self.appKeyWasSupplied)
    apply Couples.get_bind (fun _ => rfl) (fun _ => rfl)
    rw [hsame]
    by_cases hsupplied : w₂.self.appKeyWasSupplied = true
    · -- The second attempt, with a fresh key on each side.
      rw [if_pos hsupplied]
      rw [retryLapses, returns_of_ret hrun₂] at hsecond
      dsimp only at hsecond
      rw [hsupplied, Bool.true_and] at hsecond
      apply Couples.modify_bind (fun _ => rfl) (fun _ => rfl)
      exact connectAgain_couples hκ (parallel_discarded.keeps w₂ w₂' hw₂) hsecond
    · rw [if_neg hsupplied]
      exact Couples.raise hw₂ err

end Connect

/-! ## What a lapse tells -/

/-- The condition is exact: a PING that lapses is named by what the handshake raises. -/
theorem handshake_of_lapses {w : World κ} (h : pingLapses w = true) :
    (handshake w).1 = .raised (noResponse (pingRequest w.self.appKey)) := by
  obtain ⟨init, w₁, hrun, hrest⟩ := ret_of_returns h
  rw [Bool.and_eq_true] at hrest
  obtain ⟨hlong, hping⟩ := hrest
  have hsession := request_session initRequest none w
  rw [hrun] at hsession
  have hkey : w₁.self.appKey = w.self.appKey := congrArg Session.appKey hsession.session
  have hraised := request_of_lapses hping
  have hlong' : ¬ init.data.length < appKeyLength := Nat.not_lt.mpr (of_decide_eq_true hlong)
  rw [handshake, bind_of_ret hrun, if_neg hlong', modify_bind, get_bind]
  show ((request (pingRequest w₁.self.appKey) >>= afterPing) (w₁.setBleData init.data)).1 = _
  rw [bind_apply, run_eq hraised, hkey]

theorem connectTransport_keeps {w w' : World κ} (h : connectTransport w = (.ret (), w')) :
    w'.self.appKey = w.self.appKey ∧ w'.secrets = w.secrets := by
  have hopened : Opened w w' := (connectTransport_ends w).ret_of h
  exact ⟨hopened.transported.appKey, congrArg Session.secrets hopened.transported.session⟩

/-- A connect in which a PING lapses raises what names it, with the key of that attempt. -/
theorem connect_of_lapses {w : World κ} (h : connectLapses w = true) :
    ∃ key, (key = w.self.appKey ∨ ∃ n, key = (w.secrets n).1) ∧
      (connect w).1 = .raised (noResponse (pingRequest key)) := by
  obtain ⟨_, w₁, hopen, hrest⟩ := ret_of_returns h
  obtain ⟨hkey, hsecrets⟩ := connectTransport_keeps hopen
  rw [connect, bind_of_ret hopen]
  rcases Bool.or_eq_true_iff.mp hrest with hfirst | hsecond
  · have hraised := handshake_of_lapses hfirst
    refine ⟨w.self.appKey, Or.inl rfl, ?_⟩
    -- A timeout is no authentication error.
    rw [bind_apply, attempt, run_eq hraised, hkey]
    rfl
  · obtain ⟨r, w₂, hgreet, hretry⟩ := ret_of_returns hsecond
    have hlink : SameLink w₁ w₂ := by
      have hmoves : Moves SameLink (attempt (·.isInstance [.ninebotAuthError])
          (handshake : M κ Unit)) := Moves.attempt SameLink.greets.handshake
      have hlast := hmoves w₁
      rwa [hgreet] at hlast
    have hsecrets₂ : w₂.secrets = w₁.secrets := (congrArg Session.secrets hlink.session).symm
    cases r with
    | ok _ => cases hretry
    | error err =>
      rw [Bool.and_eq_true] at hretry
      obtain ⟨hsupplied, hagain⟩ := hretry
      obtain ⟨_, w₄, hboth, hlapses⟩ := ret_of_returns hagain
      obtain ⟨_, w₃, hclosed, hreopen⟩ := ret_of_bind hboth
      have hdetached := disconnect_sameSession w₂.discarded
      rw [hclosed] at hdetached
      have hkey₃ : w₃.self.appKey = (w₂.secrets w₂.drawn).1 :=
        congrArg Session.appKey hdetached.session
      have hkey₄ : w₄.self.appKey = (w.secrets w₂.drawn).1 := by
        rw [(connectTransport_keeps hreopen).1, hkey₃, hsecrets₂, hsecrets]
      have hraised := handshake_of_lapses hlapses
      rw [hkey₄] at hraised
      refine ⟨_, Or.inr ⟨w₂.drawn, rfl⟩, ?_⟩
      rw [bind_of_ret hgreet]
      dsimp only
      rw [get_bind, if_pos hsupplied]
      show (connectAgain w₂.discarded).1 = _
      rw [connectAgain, bind_of_ret hclosed, bind_of_ret hreopen]
      exact hraised

end Ninebot
