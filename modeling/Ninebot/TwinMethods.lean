import Ninebot.Twins

/-! # Requests under different keys

    A request says the same under two keys, unless it is the one that carries
    the key and its deadline is noticed at the top of the loop: there, and
    nowhere else, the packet is part of the text.

    This file defines:
    - `lapses`: the deadline is noticed at the top of the loop
    - `Cipher.Lengthens`: what is relied on of the cipher -/

namespace Ninebot

open Coro

variable {κ α : Type} [Cipher κ]

/-! ## Sending -/

/-- What `encrypt` adds to a frame has always the same length. -/
def Cipher.Lengthens (κ : Type) [Cipher κ] : Prop :=
  ∀ (keys : Keys) (state : κ) (data : Bytes),
    (Cipher.encrypt keys state data).1.length = data.length + encryptionOverhead

/-- Two packets that differ at most in the key that they carry. -/
structure SameButKey (p p' : Packet) : Prop where
  blur : p'.blur = p.blur
  length : p'.data.length = p.data.length

theorem SameButKey.refl (p : Packet) : SameButKey p p := ⟨rfl, rfl⟩

theorem SameButKey.pack {p p' : Packet} (h : SameButKey p p') :
    (∃ e, p.pack = .error e ∧ p'.pack = .error e) ∨
      ∃ raw raw' : Bytes, p.pack = .ok raw ∧ p'.pack = .ok raw' ∧ raw'.length = raw.length := by
  unfold Packet.pack
  rw [h.length]
  by_cases hlong : p.data.length > maxDataLength
  · left
    rw [if_pos hlong, if_pos hlong]
    exact ⟨_, rfl, rfl⟩
  · right
    rw [if_neg hlong, if_neg hlong]
    refine ⟨_, _, rfl, rfl, ?_⟩
    simp only [List.length_append, List.length_cons, List.length_nil, h.length]

theorem matchesRequest_blur (response p : Packet) :
    response.matchesRequest p.blur = response.matchesRequest p := by
  unfold Packet.blur
  split <;> rfl

theorem SameButKey.matchesRequest {p p' : Packet} (h : SameButKey p p') (response : Packet) :
    response.matchesRequest p' = response.matchesRequest p := by
  rw [← matchesRequest_blur response p', h.blur, matchesRequest_blur]

/-- The same number of chunks is written, and the texts are about the link. -/
theorem twinned_send (hκ : Cipher.Lengthens κ) {p p' : Packet} (h : SameButKey p p') :
    Twinned (send p : M κ Unit) (send p') := by
  have hfail : ∀ text, Twinned ((do
      M.log (.sendFailed p)
      Coro.raise ⟨.ninebotConnectionError, text⟩) : M κ Unit) (do
      M.log (.sendFailed p')
      Coro.raise ⟨.ninebotConnectionError, text⟩) := by
    intro text
    have hlog : (Obs.sendFailed p').blur = (Obs.sendFailed p).blur :=
      congrArg Obs.sendFailed h.blur
    exact Alike.bind (twinned_log hlog) fun _ => Alike.raise _
  apply Alike.get_bind (fun _ _ => rfl) (fun _ _ => rfl)
  intro w w' hw
  rw [hw.client]
  cases w.self.client with
  | none => exact hfail _
  | some l =>
    dsimp only
    rw [hw.isUp l]
    by_cases hup : w.isUp l
    · rw [if_pos hup, if_pos hup]
      rcases h.pack with ⟨e, hp, hp'⟩ | ⟨raw, raw', hp, hp', hlen⟩
      · rw [hp, hp']
        exact Alike.raise e
      · rw [hp, hp']
        dsimp only
        -- The plaintexts differ in the key, and so do the cipher's states from here on.
        have hsent : ∀ (state : κ) (p₀ : Packet), p₀.blur = p.blur →
            Shows (κ := κ) (fun b => b.log (.sent b.now l { name := [] } p.blur))
              (fun w => (w.setCrypto { w.self.crypto with state := state }).log
                (.sent w.now l w.self.crypto.keys p₀)) := by
          intro state p₀ hp₀
          refine ⟨fun w => ?_, fun _ _ => rfl, fun _ => rfl⟩
          rw [← hp₀]
          rfl
        apply Alike.modify_bind ((hsent _ p rfl).parallel (hsent _ p' h.blur))
        apply Alike.attempt_bind
        · -- The chunks differ, but there are as many of them.
          apply twinned_writeChunks
          unfold Reassembly.slices
          rw [List.length_map, List.length_map, List.length_range, List.length_range, hκ, hκ, hlen,
            hw.chunkSize]
        · exact fun _ => Alike.pure ()
        · exact fun err => hfail _
    · rw [if_neg hup, if_neg hup]
      exact hfail _

/-! ## Waiting for the response -/

/-- Is the deadline noticed at the top of the loop of `_request`, on the first
    turn or after a packet that was ignored? -/
def lapses (packet : Packet) (deadline : Nat) : Nat → World κ → Bool
  | 0, _ => false
  | gas + 1, w =>
      if deadline ≤ w.now then true
      else returns (receive (deadline - w.now)) (fun response w' =>
        if response.packet.matchesRequest packet then false
        else lapses packet deadline gas w') w

theorem requestLoop_reads (p : Packet) (deadline gas : Nat) :
    Reads (requestLoop p deadline gas : M κ Packet) := by
  induction gas with
  | zero => exact Reads.pend
  | succ gas ih =>
    have hlog : ∀ o : Obs, Reads (M.log o : M κ Unit) := fun o => (twinned_log rfl).reads
    apply Reads.get_bind (fun _ _ => rfl)
    intro w
    by_cases hd : deadline ≤ w.now
    · rw [if_pos hd]
      exact Reads.bind (hlog _) fun _ => Reads.raise _
    · rw [if_neg hd]
      apply Reads.bind (Reads.attempt (twinned_receive _).reads)
      intro r
      cases r with
      | error err => exact Reads.bind (hlog _) fun _ => Reads.raise _
      | ok response =>
        by_cases hm : response.packet.matchesRequest p
        · simp only [hm, if_true]
          exact Reads.bind (hlog _) fun _ => Reads.pure _
        · simp only [hm]
          exact ih

/-- A loop whose packet does not differ, or whose deadline is noticed in
    `_receive`, which does not name the packet. -/
theorem requestLoop_couples {p p' : Packet} (h : SameButKey p p') {deadline gas : Nat}
    {w w' : World κ} (hw : Twin w w') (htime : p' = p ∨ lapses p deadline gas w = false) :
    Couples Twin World.packets (requestLoop p deadline gas) (requestLoop p' deadline gas) w w' := by
  induction gas generalizing w w' with
  | zero => exact Couples.pend hw
  | succ gas ih =>
    have hlog : ∀ c, Twinned (M.log (.unanswered c p) : M κ Unit) (M.log (.unanswered c p')) :=
      fun c => twinned_log (congrArg (Obs.unanswered c) h.blur)
    apply Couples.get_bind (fun _ => rfl) (fun _ => rfl)
    rw [hw.now, hw.client]
    by_cases hd : deadline ≤ w.now
    · rw [if_pos hd, if_pos hd]
      -- The one text that holds the packet.
      rcases htime with rfl | hnone
      · exact (Alike.bind (hlog _) fun _ => Alike.raise _).couples w w' hw
      · unfold lapses at hnone
        rw [if_pos hd] at hnone
        cases hnone
    · rw [if_neg hd, if_neg hd]
      apply (twinned_receive _).attempt.bind_couples hw
      intro r w₁ w₁' hrun hw₁
      cases r with
      | error err => exact (Alike.bind (hlog _) fun _ => Alike.raise err).couples w₁ w₁' hw₁
      | ok response =>
        dsimp only
        rw [h.matchesRequest]
        by_cases hm : response.packet.matchesRequest p
        · rw [if_pos hm, if_pos hm]
          have hanswered : ∀ c i, (Obs.answered c p' response.packet i).blur =
              (Obs.answered c p response.packet i).blur :=
            fun c i => congrArg (Obs.answered c · response.packet i) h.blur
          exact (Alike.bind (twinned_log (hanswered _ _)) fun _ => Alike.pure _).couples w₁ w₁' hw₁
        · rw [if_neg hm, if_neg hm]
          apply ih hw₁
          apply htime.imp_right
          intro hnone
          unfold lapses at hnone
          rw [if_neg hd, returns_of_ret (ret_of_attempt hrun), if_neg hm] at hnone
          exact hnone

/-! ## Requests -/

section Requests

variable (hκ : Cipher.Lengthens κ)
include hκ

theorem request_reads (p : Packet) (timeout : Option Nat) :
    Reads (request p timeout : M κ Packet) := by
  apply Reads.bind (twinned_send hκ (SameButKey.refl p)).reads
  intro _
  apply Reads.get_bind (fun _ _ => rfl)
  exact fun w => requestLoop_reads p _ w.gas

omit hκ in
/-- Is the deadline of a request noticed at the top of its loop? -/
def requestLapses (packet : Packet) (timeout : Option Nat) (w : World κ) : Bool :=
  returns (send packet) (fun _ w' =>
    lapses packet (w'.now + timeout.getD w'.self.requestTimeout) w'.gas w') w

theorem request_couples {p p' : Packet} (h : SameButKey p p') {timeout : Option Nat}
    {w w' : World κ} (hw : Twin w w') (htime : p' = p ∨ requestLapses p timeout w = false) :
    Couples Twin World.packets (request p timeout) (request p' timeout) w w' := by
  apply (twinned_send hκ h).bind_couples hw
  intro _ w₁ w₁' hrun hw₁
  apply Couples.get_bind (fun _ => rfl) (fun _ => rfl)
  have htimeout : w₁'.self.requestTimeout = w₁.self.requestTimeout :=
    hw₁.read (·.self.requestTimeout)
  rw [hw₁.now, htimeout, hw₁.gas]
  apply requestLoop_couples h hw₁
  apply htime.imp_right
  intro hnone
  rwa [requestLapses, returns_of_ret hrun] at hnone

theorem twinned_request (p : Packet) (timeout : Option Nat) :
    Twinned (request p timeout : M κ Packet) (request p timeout) where
  reads := request_reads hκ p timeout
  reads' := request_reads hκ p timeout
  couples _ _ hw := request_couples hκ (SameButKey.refl p) hw (Or.inl rfl)

omit hκ in
/-- What `_request` raises where the deadline is noticed at the top of its loop. -/
def noResponse (packet : Packet) : Exc :=
  ⟨.ninebotTimeoutError, "No response to " ++ packet.str⟩

omit hκ in
theorem requestLoop_of_lapses {p : Packet} {deadline gas : Nat} {w : World κ}
    (h : lapses p deadline gas w = true) :
    (requestLoop p deadline gas w).1 = .raised (noResponse p) := by
  induction gas generalizing w with
  | zero => cases h
  | succ gas ih =>
    rw [requestLoop, get_bind]
    unfold lapses at h
    by_cases hd : deadline ≤ w.now
    · rw [if_pos hd]
      rfl
    · rw [if_neg hd] at h ⊢
      obtain ⟨response, w₁, hrun, hrest⟩ := ret_of_returns h
      by_cases hm : response.packet.matchesRequest p
      · rw [if_pos hm] at hrest
        cases hrest
      · -- The packet is ignored, and the deadline stays.
        rw [if_neg hm] at hrest
        rw [bind_of_ret (attempt_of_ret hrun)]
        dsimp only
        rw [if_neg hm]
        exact ih hrest

omit hκ in
theorem request_of_lapses {p : Packet} {timeout : Option Nat} {w : World κ}
    (h : requestLapses p timeout w = true) : (request p timeout w).1 = .raised (noResponse p) := by
  obtain ⟨_, w₁, hrun, hrest⟩ := ret_of_returns h
  rw [request, bind_of_ret hrun, get_bind]
  exact requestLoop_of_lapses hrest

/-! ## Reads -/

theorem twinned_walk (register : Register) (words : List Nat) (payload : Bytes) :
    Twinned (walk register words payload : M κ Bytes) (walk register words payload) := by
  induction words generalizing payload with
  | nil => exact Alike.pure payload
  | cons word rest ih => exact Alike.bind (twinned_request hκ _ _) fun _ => ih _

theorem twinned_readRegister (register : Register) :
    Twinned (readRegister register : M κ Bytes) (readRegister register) := by
  have hwalk : Twinned (walkRegister register : M κ Bytes) (walkRegister register) :=
    Alike.bind (twinned_walk hκ register _ _) fun _ => Alike.pure _
  have hbulk : Twinned (bulkRead register : M κ Packet) (bulkRead register) := by
    unfold bulkRead
    by_cases hlen : register.length < 256
    · rw [if_pos hlen]
      exact twinned_request hκ _ _
    · rw [if_neg hlen]
      exact Alike.raise _
  apply Alike.attempt_bind hbulk
  · intro response
    by_cases hfull : response.data.length ≥ register.length
    · simp only [hfull, if_true]
      exact Alike.pure _
    · simp only [hfull, if_false]
      exact hwalk
  · intro err
    by_cases hshort : register.length ≤ wordSize
    · simp only [hshort, if_true]
      exact Alike.raise err
    · simp only [hshort, if_false]
      exact hwalk

theorem twinned_pollLoop (registers : List Register) (state : ScooterState) (timeouts : Nat) :
    Twinned (pollLoop registers state timeouts : M κ ScooterState)
      (pollLoop registers state timeouts) := by
  induction registers generalizing state timeouts with
  | nil => exact Alike.pure state
  | cons register rest ih =>
    apply Alike.attempt_bind (twinned_readRegister hκ register)
    · intro payload
      -- Both runs decode the same payload.
      cases hc : register.convert payload with
      | ok value =>
        simp only [hc]
        exact ih _ _
      | error err =>
        simp only [hc]
        by_cases hval : err.isInstance [.valueError, .indexError]
        · simp only [hval, if_true]
          exact ih _ _
        · simp only [hval]
          exact Alike.raise err
    · intro err
      by_cases htime : err.isInstance [.ninebotTimeoutError]
      · by_cases hmany : maxConsecutiveTimeouts ≤ timeouts + 1
        · simp only [htime, hmany, if_true]
          exact Alike.raise _
        · simp only [htime, hmany, if_true, if_false]
          exact ih _ _
      · simp only [htime]
        exact ih _ _

theorem twinned_asyncPoll (includeStatic : Bool) :
    Twinned (asyncPoll includeStatic : M κ ScooterState) (asyncPoll includeStatic) := by
  apply Alike.get_bind (fun _ _ => rfl) (fun _ _ => rfl)
  intro w w' hw
  rw [hw.isConnected]
  by_cases hup : w.isConnected
  · simp only [hup, if_true]
    exact twinned_pollLoop hκ _ _ _
  · simp only [hup]
    exact Alike.raise _

/-! ## Pairing and verifying -/

theorem twinned_awaitPairingLoop (deadline gas : Nat) :
    Twinned (awaitPairingLoop deadline gas : M κ Unit) (awaitPairingLoop deadline gas) := by
  induction gas with
  | zero => exact Alike.pend
  | succ gas ih =>
    apply Alike.get_bind (fun _ _ => rfl) (fun _ _ => rfl)
    intro w w' hw
    have hchallenge : w'.self.serialChallenge = w.self.serialChallenge :=
      hw.read (·.self.serialChallenge)
    rw [hw.now, hchallenge]
    by_cases hd : w.now < deadline
    · rw [if_pos hd]
      apply Alike.bind (twinned_send hκ (SameButKey.refl _))
      intro _
      apply Alike.attempt_bind (twinned_receive _)
      · intro response
        by_cases haccepts : acceptsPairing response.packet
        · simp only [haccepts, if_true]
          exact Alike.pure ()
        · simp only [haccepts]
          exact ih
      · exact fun _ => ih
    · rw [if_neg hd]
      exact Alike.raise _

omit hκ [Cipher κ] in
theorem twinned_info (text : String) : Twinned (M.info text : M κ Unit) (M.info text) := by
  apply Alike.get_bind (fun _ _ => rfl) (fun _ _ => rfl)
  intro w w' hw
  rw [hw.name]
  exact twinned_log rfl

theorem twinned_awaitPairing : Twinned (awaitPairing : M κ Unit) awaitPairing := by
  apply Alike.bind (twinned_info _)
  intro _
  apply Alike.get_bind (fun _ _ => rfl) (fun _ _ => rfl)
  intro w w' hw
  have htimeout : w'.self.pairingTimeout = w.self.pairingTimeout :=
    hw.read (·.self.pairingTimeout)
  rw [hw.now, htimeout, hw.gas]
  exact twinned_awaitPairingLoop hκ _ _

theorem twinned_verifySession : Twinned (verifySession : M κ Unit) verifySession := by
  apply Alike.attempt_bind (twinned_readRegister hκ _)
  · exact fun _ => Alike.pure ()
  · exact fun _ => Alike.raise _

end Requests

end Ninebot
