import Ninebot.Steps

/-! # How a request ends

    `SendEnds` and `RequestEnds` list the ways in which `_send` and `_request`
    can end, each with what it has done by then.  Proofs about the methods
    that make requests look here, never into `_request` again.

    What has been done is the list of deeds, newest first: the trace without
    what was heard, written or said. -/

namespace Ninebot

open Coro

variable {κ α : Type}

/-! ## Deeds -/

def World.deeds (w : World κ) : List Obs := w.trace.filter Obs.isDeed

@[simp] theorem World.deeds_log_deed {w : World κ} {o : Obs} (h : o.isDeed = true) :
    (w.log o).deeds = o :: w.deeds := List.filter_cons_of_pos h

@[simp] theorem World.deeds_log_note {w : World κ} {o : Obs} (h : o.isDeed = false) :
    (w.log o).deeds = w.deeds := by
  apply List.filter_cons_of_neg
  rw [h]
  exact Bool.false_ne_true

theorem World.deeds_suffix {w w' : World κ} (h : w.trace <:+ w'.trace) : w.deeds <:+ w'.deeds :=
  h.filter _

/-- What was done between `w` and `w'`, newest first. -/
def World.newDeeds (w w' : World κ) : List Obs :=
  w'.deeds.take (w'.deeds.length - w.deeds.length)

theorem World.newDeeds_eq {w w' : World κ} (new : List Obs) (h : w'.deeds = new ++ w.deeds) :
    w.newDeeds w' = new := by
  rw [newDeeds, h, List.length_append, Nat.add_sub_cancel, List.take_left]

theorem World.newDeeds_self (w : World κ) : w.newDeeds w = [] :=
  World.newDeeds_eq [] rfl

theorem World.deeds_eq_newDeeds {w w' : World κ} (h : w.trace <:+ w'.trace) :
    w'.deeds = w.newDeeds w' ++ w.deeds := by
  obtain ⟨new, hnew⟩ := World.deeds_suffix h
  rw [World.newDeeds_eq new hnew.symm, hnew]

/-- What happened between `w` and `w'`, newest first. -/
def World.newTrace (w w' : World κ) : List Obs :=
  w'.trace.take (w'.trace.length - w.trace.length)

theorem World.newTrace_eq {w w' : World κ} {new : List Obs} (h : w'.trace = new ++ w.trace) :
    w.newTrace w' = new := by
  rw [newTrace, h, List.length_append, Nat.add_sub_cancel, List.take_left]

theorem World.newTrace_self (w : World κ) : w.newTrace w = [] :=
  World.newTrace_eq (List.nil_append _).symm

theorem World.trace_eq_newTrace {w w' : World κ} (h : w.trace <:+ w'.trace) :
    w'.trace = w.newTrace w' ++ w.trace := by
  obtain ⟨new, hnew⟩ := h
  rw [World.newTrace_eq hnew.symm, hnew]

theorem World.newTrace_trans {w w' w'' : World κ} (h : w.trace <:+ w'.trace)
    (h' : w'.trace <:+ w''.trace) : w.newTrace w'' = w'.newTrace w'' ++ w.newTrace w' := by
  apply World.newTrace_eq
  rw [List.append_assoc, ← World.trace_eq_newTrace h, ← World.trace_eq_newTrace h']

theorem World.newDeeds_eq_filter {w w' : World κ} (h : w.trace <:+ w'.trace) :
    w.newDeeds w' = (w.newTrace w').filter Obs.isDeed := by
  apply World.newDeeds_eq _
  rw [deeds, deeds, ← List.filter_append, ← World.trace_eq_newTrace h]

theorem World.mem_newDeeds_iff {w w' : World κ} (h : w.trace <:+ w'.trace) {o : Obs} :
    o ∈ w.newDeeds w' ↔ o ∈ w.newTrace w' ∧ o.isDeed = true := by
  rw [World.newDeeds_eq_filter h, List.mem_filter]

/-- The trace has one more entry. -/
theorem World.mem_newTrace_cons {w₀ w w' : World κ} (h : w₀.trace <:+ w.trace) {o : Obs}
    (htrace : w'.trace = o :: w.trace) (o' : Obs) :
    o' ∈ w₀.newTrace w' ↔ o' = o ∨ o' ∈ w₀.newTrace w := by
  have hone : w.newTrace w' = [o] := World.newTrace_eq htrace
  have hsuffix : w.trace <:+ w'.trace := htrace ▸ List.suffix_cons _ _
  rw [World.newTrace_trans h hsuffix, hone, List.mem_append, List.mem_singleton]

theorem World.mem_newTrace_log {w₀ w : World κ} (h : w₀.trace <:+ w.trace) {o o' : Obs} :
    o' ∈ w₀.newTrace (w.log o) ↔ o' = o ∨ o' ∈ w₀.newTrace w :=
  World.mem_newTrace_cons h rfl o'

theorem World.newDeeds_trans {w w' w'' : World κ} (h : w.trace <:+ w'.trace)
    (h' : w'.trace <:+ w''.trace) : w.newDeeds w'' = w'.newDeeds w'' ++ w.newDeeds w' := by
  apply World.newDeeds_eq _
  rw [List.append_assoc, ← World.deeds_eq_newDeeds h, ← World.deeds_eq_newDeeds h']

/-- What was done in a later part of a run was done in the run. -/
theorem World.mem_newDeeds_of_later {w w' w'' : World κ} (h : w.trace <:+ w'.trace)
    (h' : w'.trace <:+ w''.trace) {o : Obs} (ho : o ∈ w'.newDeeds w'') : o ∈ w.newDeeds w'' := by
  rw [World.newDeeds_trans h h']
  exact List.mem_append_left _ ho

theorem World.mem_newDeeds_of_earlier {w w' w'' : World κ} (h : w.trace <:+ w'.trace)
    (h' : w'.trace <:+ w''.trace) {o : Obs} (ho : o ∈ w.newDeeds w') : o ∈ w.newDeeds w'' := by
  rw [World.newDeeds_trans h h']
  exact List.mem_append_right _ ho

/-- A later moment of the same session, before anything else was done. -/
structure Idle (w w' : World κ) : Prop where
  session : SameSession w w'
  deeds : w'.deeds = w.deeds

namespace Idle

variable {w w' w'' : World κ}

theorem refl (w : World κ) : Idle w w := ⟨SameSession.refl w, rfl⟩

theorem trans (h : Idle w w') (h' : Idle w' w'') : Idle w w'' :=
  ⟨h.session.trans h'.session, h'.deeds.trans h.deeds⟩

instance : Std.Refl (Idle (κ := κ)) := ⟨refl⟩

instance : IsTrans (World κ) Idle := ⟨fun _ _ _ => trans⟩

theorem log (w : World κ) (o : Obs) (h : o.isDeed = false) : Idle w (w.log o) :=
  ⟨SameSession.log w o, World.deeds_log_note h⟩

end Idle

variable [Cipher κ]

theorem apply_deeds (e : Event) (w : World κ) : (w.apply e).deeds = w.deeds := by
  have hhears : Hears (Same (World.deeds (κ := κ))) := by
    refine ⟨⟨fun _ _ => rfl, fun w l p _ => ?_⟩, fun _ _ => rfl, fun _ _ _ => rfl, fun _ _ => rfl⟩
    show ((w.log (.received w.now l p)).putNowait _).deeds = w.deeds
    unfold World.putNowait
    split <;> rfl
  exact hhears.apply e w fun _ => rfl

theorem Idle.apply (e : Event) (w : World κ) : Idle w (w.apply e) :=
  ⟨SameSession.apply e w, apply_deeds e w⟩

omit [Cipher κ] in
theorem Idle.setScript (w : World κ) (s : List Step) : Idle w (w.setScript s) :=
  ⟨SameSession.setScript w s, rfl⟩

theorem Idle.waits : Waits (Idle (κ := κ)) where
  event e w _ := Idle.apply e w
  script w s _ := Idle.setScript w s
  note w o _ h _ := Idle.log w o h
  take h := by
    refine ⟨popResponse_sameSession h, ?_⟩
    obtain ⟨_, _, rfl⟩ := popResponse_eq h
    rfl

/-! ## Sending -/

def Obs.isSent : Obs → Bool
  | .sent .. => true
  | _ => false

/-- The packet `p`, encrypted and written from `w` to link `l`. -/
def World.sentObs (w : World κ) (l : Nat) (p : Packet) : Obs := .sent w.now l w.self.crypto.keys p

/-- The link to which `_send` writes from `w`. -/
structure LinkUp (w : World κ) (l : Nat) : Prop where
  client : w.self.client = some l
  up : w.isUp l = true

/-- The packet is encrypted, and the cipher moves on. -/
def World.encrypted (w : World κ) (l : Nat) (p : Packet) (state : κ) : World κ :=
  (w.setCrypto { w.self.crypto with state := state }).log (w.sentObs l p)

section Sending

variable {R : World κ → World κ → Prop} [Std.Refl R] [IsTrans (World κ) R]

/-- Why a chunk is not written: the client has lost its link, or the call raised. -/
inductive WriteFails (R : World κ → World κ → Prop) (w : World κ) : World κ → Prop where
  | unlinked {w' : World κ} : R w w' → w'.self.client = none → WriteFails R w w'
  | raised {w₁ : World κ} (l : Nat) : R w w₁ → WriteFails R w (w₁.log (.writeFailed l))

theorem Suspends.writeChunks_fails (h : Suspends R) (chunks : List Bytes) (w : World κ) :
    Triple (Ninebot.writeChunks chunks) w (fun _ => R w)
      (fun e w' => e.isInstance [.ninebotError] = false ∧ WriteFails R w w') (R w) := by
  induction chunks generalizing w with
  | nil => exact Triple.pure (refl_of R w)
  | cons c cs ih =>
    have hwrite : Triple (Ninebot.writeGattChar c) w (fun _ => R w)
        (fun e w' => e.isInstance [.ninebotError] = false ∧ WriteFails R w w') (R w) := by
      apply Triple.get_bind
      cases hc : w.self.client with
      | none => exact Triple.raise ⟨rfl, WriteFails.unlinked (refl_of R w) hc⟩
      | some l =>
        apply (h.awaitCall_triple _ _ w).mono
        · intro _ w' hended
          obtain ⟨w₁, hR, rfl⟩ := hended
          exact trans_of R hR (h.note w₁ _ rfl rfl rfl)
        · intro e w' hended
          obtain ⟨hforeign, w₁, hR, rfl⟩ := hended
          exact ⟨hforeign, WriteFails.raised l hR⟩
        · exact fun _ hR => hR
    -- The first chunk that fails is the last one that is written.
    refine Triple.bind hwrite fun _ w₁ h₁ => (ih w₁).mono (fun _ _ h₂ => trans_of R h₁ h₂) ?_
      (fun _ h₂ => trans_of R h₁ h₂)
    intro e w' hended
    obtain ⟨hforeign, hfailed⟩ := hended
    refine ⟨hforeign, ?_⟩
    cases hfailed with
    | unlinked h₂ hnone => exact WriteFails.unlinked (trans_of R h₁ h₂) hnone
    | raised l h₂ => exact WriteFails.raised l (trans_of R h₁ h₂)

/-- How `_send(p)` from `w` raises: before the packet is encrypted, or while
    its chunks are written. -/
inductive SendFails (R : World κ → World κ → Prop) (w : World κ) (p : Packet) :
    Exc → World κ → Prop where
  | down {e : Exc} : w.isConnected = false → e.cls = .ninebotConnectionError →
      SendFails R w p e (w.log (.sendFailed p))
  | tooLong {e : Exc} : p.pack = .error e → SendFails R w p e w
  | failed {l : Nat} {state : κ} {w₁ : World κ} {e : Exc} : LinkUp w l →
      WriteFails R (w.encrypted l p state) w₁ → e.cls = .ninebotConnectionError →
      SendFails R w p e (w₁.log (.sendFailed p))
  /-- What `_send` does not catch. -/
  | foreign {l : Nat} {state : κ} {w' : World κ} {e : Exc} : LinkUp w l →
      WriteFails R (w.encrypted l p state) w' → e.isInstance [.ninebotError] = false →
      SendFails R w p e w'

/-- Whatever the outcome, the chunks are written after the packet was encrypted. -/
theorem Suspends.send_triple (h : Suspends R) (p : Packet) (w : World κ) :
    Triple (Ninebot.send p) w (fun _ w' => ∃ l state, LinkUp w l ∧ R (w.encrypted l p state) w')
      (SendFails R w p) (fun w' => ∃ l state, LinkUp w l ∧ R (w.encrypted l p state) w') := by
  have hdown : w.isConnected = false → Triple (do
      M.log (.sendFailed p)
      Coro.raise ⟨.ninebotConnectionError, "Not connected"⟩) w
      (fun (_ : Unit) w' => ∃ l state, LinkUp w l ∧ R (w.encrypted l p state) w')
      (SendFails R w p) (fun w' => ∃ l state, LinkUp w l ∧ R (w.encrypted l p state) w') :=
    fun hno => Triple.modify_bind (Triple.raise (SendFails.down hno rfl))
  apply Triple.get_bind
  cases hc : w.self.client with
  | none => exact hdown (by rw [World.isConnected, hc])
  | some l =>
    by_cases hup : w.isUp l
    · simp only [hup, if_true]
      have hlink : LinkUp w l := ⟨hc, hup⟩
      cases hp : p.pack with
      | error e => exact Triple.raise (SendFails.tooLong hp)
      | ok plaintext =>
        apply Triple.modify_bind
        -- From here on the packet is encrypted, whatever becomes of the writes.
        refine Triple.attempt_bind
          (X := fun _ w' => ∃ state, WriteFails R (w.encrypted l p state) w')
          ((h.writeChunks_fails _ _).mono (fun _ _ hR => hR) ?_ fun _ hR => ⟨l, _, hlink, hR⟩)
          (fun _ w' hR => Triple.pure ⟨l, _, hlink, hR⟩) ?_
        · intro e w' hended
          split
          · exact ⟨_, hended.2⟩
          · exact SendFails.foreign hlink hended.2 hended.1
        · intro e w' hfailed
          obtain ⟨state, hfailed⟩ := hfailed
          exact Triple.modify_bind (Triple.raise (SendFails.failed hlink hfailed rfl))
    · simp only [hup]
      apply hdown
      rw [World.isConnected, hc]
      simpa using hup

end Sending

/-- How `_send(p)` from `w` ends. -/
inductive SendEnds (w : World κ) (p : Packet) : Res Exc Unit → World κ → Prop where
  /-- There is no link, or it is down. -/
  | down {e : Exc} {w' : World κ} : w.isConnected = false → e.cls = .ninebotConnectionError →
      w'.deeds = .sendFailed p :: w.deeds → SendEnds w p (.raised e) w'
  | tooLong {e : Exc} {w' : World κ} : p.pack = .error e → w'.deeds = w.deeds →
      SendEnds w p (.raised e) w'
  /-- A write failed. -/
  | failed {l : Nat} {e : Exc} {w' : World κ} : LinkUp w l → e.cls = .ninebotConnectionError →
      w'.deeds = .sendFailed p :: w.sentObs l p :: w.deeds → SendEnds w p (.raised e) w'
  /-- A write raised what `_send` does not catch. -/
  | foreign {l : Nat} {e : Exc} {w' : World κ} : LinkUp w l → e.isInstance [.ninebotError] = false →
      w'.deeds = w.sentObs l p :: w.deeds → SendEnds w p (.raised e) w'
  | writing {l : Nat} {w' : World κ} : LinkUp w l → w'.deeds = w.sentObs l p :: w.deeds →
      SendEnds w p .pending w'
  | sent {l : Nat} {w' : World κ} : LinkUp w l → w'.deeds = w.sentObs l p :: w.deeds →
      SendEnds w p (.ret ()) w'

theorem send_ends (p : Packet) (w : World κ) : SendEnds w p (send p w).1 (send p w).2 := by
  -- The deed is the encryption; writing the chunks adds none.
  have hsent : ∀ l state, (w.encrypted l p state).deeds = w.sentObs l p :: w.deeds := fun _ _ =>
    World.deeds_log_deed rfl
  have hwrites : ∀ {l state w'}, WriteFails Idle (w.encrypted l p state) w' →
      w'.deeds = w.sentObs l p :: w.deeds := by
    intro l state w' hfailed
    cases hfailed with
    | unlinked hidle _ => rw [hidle.deeds, hsent]
    | raised m hidle => rw [(hidle.trans (Idle.log _ (.writeFailed m) rfl)).deeds, hsent]
  refine Triple.iff_result.mp ((Idle.waits.send_triple p w).mono ?_ ?_ ?_)
  · intro _ w' h
    obtain ⟨l, state, hl, hidle⟩ := h
    exact SendEnds.sent hl (by rw [hidle.deeds, hsent])
  · intro e w' h
    cases h with
    | down hno hcls => exact SendEnds.down hno hcls (World.deeds_log_deed rfl)
    | tooLong hp => exact SendEnds.tooLong hp rfl
    | failed hl hfailed hcls =>
      apply SendEnds.failed hl hcls
      rw [World.deeds_log_deed rfl, hwrites hfailed]
    | foreign hl hfailed hforeign => exact SendEnds.foreign hl hforeign (hwrites hfailed)
  · intro w' h
    obtain ⟨l, state, hl, hidle⟩ := h
    exact SendEnds.writing hl (by rw [hidle.deeds, hsent])

/-! ## Requests -/

/-- How `_request(p)` from `w` ends. -/
inductive RequestEnds (w : World κ) (p : Packet) : Res Exc Packet → World κ → Prop where
  /-- `_send` raised. -/
  | refused {e : Exc} {w' : World κ} : SendEnds w p (.raised e) w' →
      RequestEnds w p (.raised e) w'
  | waiting {l : Nat} {w' : World κ} : LinkUp w l → w'.deeds = w.sentObs l p :: w.deeds →
      RequestEnds w p .pending w'
  | unanswered {l : Nat} {l' : Option Nat} {e : Exc} {w' : World κ} : LinkUp w l →
      e.cls = .ninebotTimeoutError →
      w'.deeds = .unanswered l' p :: w.sentObs l p :: w.deeds → RequestEnds w p (.raised e) w'
  /-- A packet that matches was taken.  If there still is a link, it is the
      one on which the answer came. -/
  | answered {l : Nat} {l' : Option Nat} {r : Packet} {i : Nat} {w' : World κ} : LinkUp w l →
      r.matchesRequest p = true → (∀ m, w'.self.client = some m → l' = some m) →
      w'.deeds = .answered l' p r i :: w.sentObs l p :: w.deeds → RequestEnds w p (.ret r) w'

theorem requestLoop_ends (p : Packet) (deadline gas : Nat) (w : World κ) :
    Triple (requestLoop p deadline gas) w
      (fun r w' => r.matchesRequest p = true ∧ ∃ l i,
        (∀ m, w'.self.client = some m → l = some m) ∧ w'.deeds = .answered l p r i :: w.deeds)
      (fun e w' => e.cls = .ninebotTimeoutError ∧ ∃ l, w'.deeds = .unanswered l p :: w.deeds)
      (fun w' => w'.deeds = w.deeds) := by
  -- Receiving is no deed, whether a packet comes or not.
  apply Idle.waits.requestLoop_triple (I := Idle w) (fun h hstep => h.trans hstep)
    (fun h hpop _ => h.trans (Idle.waits.take hpop)) _ _ (fun h => h.deeds) _ _ (Idle.refl w)
  · intro w₀ w₁ a w₂ h₀ h₁ hpop _ hm
    have hidle := h₁.trans (Idle.waits.take hpop)
    refine ⟨hm, w₀.self.client, a.receivedAt, fun m hclient => hidle.session.held hclient, ?_⟩
    rw [← (h₀.trans hidle).deeds]
    exact World.deeds_log_deed rfl
  · intro w₀ w₁ e h₀ h₁ he
    refine ⟨he, w₀.self.client, ?_⟩
    rw [← (h₀.trans h₁).deeds]
    exact World.deeds_log_deed rfl

theorem request_ends (p : Packet) (t : Option Nat) (w : World κ) :
    RequestEnds w p (request p t w).1 (request p t w).2 := by
  have hsend := send_ends p w
  rw [request, bind_apply]
  rcases hs : send p w with ⟨_ | e | _, w₁⟩ <;> rw [hs] at hsend
  · obtain ⟨l, hl, hdeeds⟩ : ∃ l, LinkUp w l ∧ w₁.deeds = w.sentObs l p :: w.deeds := by
      cases hsend with
      | sent hl hdeeds => exact ⟨_, hl, hdeeds⟩
    have hloop := requestLoop_ends p (w₁.now + t.getD w₁.self.requestTimeout) w₁.gas w₁
    dsimp only
    rw [get_bind]
    unfold Triple at hloop
    generalize requestLoop p _ _ w₁ = out at hloop ⊢
    obtain ⟨r | e | _, w₂⟩ := out
    · obtain ⟨hr, l', i, hl', hdeeds'⟩ := hloop
      exact RequestEnds.answered hl hr hl' (by rw [hdeeds', hdeeds])
    · obtain ⟨he, l', hdeeds'⟩ := hloop
      exact RequestEnds.unanswered hl he (by rw [hdeeds', hdeeds])
    · exact RequestEnds.waiting hl (Eq.trans hloop hdeeds)
  · exact RequestEnds.refused hsend
  · cases hsend with
    | writing hl hdeeds => exact RequestEnds.waiting hl hdeeds

theorem request_session (p : Packet) (t : Option Nat) (w : World κ) :
    SameSession w (request p t w).2 := SameSession.asks.request p t w

/-! ## What is done -/

/-- Everything that was done since is as `P` says. -/
structure Does (P : Obs → Prop) (w w' : World κ) : Prop where
  trace : w.trace <:+ w'.trace
  deeds : ∀ o ∈ w.newDeeds w', P o

namespace Does

variable {P : Obs → Prop} {w w' w'' : World κ}

omit [Cipher κ]

theorem of_deeds (new : List Obs) (h : w.trace <:+ w'.trace) (hd : w'.deeds = new ++ w.deeds)
    (hP : ∀ o ∈ new, P o) : Does P w w' := by
  refine ⟨h, ?_⟩
  rw [World.newDeeds_eq new hd]
  exact hP

/-- Nothing was done. -/
theorem of_same (h : w.trace <:+ w'.trace) (hd : w'.deeds = w.deeds) : Does P w w' :=
  of_deeds [] h hd (by simp)

theorem refl (w : World κ) : Does P w w := of_same (List.suffix_refl _) rfl

theorem trans (h : Does P w w') (h' : Does P w' w'') : Does P w w'' := by
  refine ⟨h.trace.trans h'.trace, ?_⟩
  intro o ho
  rw [World.newDeeds_trans h.trace h'.trace] at ho
  rcases List.mem_append.mp ho with hnew | hold
  · exact h'.deeds o hnew
  · exact h.deeds o hold

instance : Std.Refl (Does (κ := κ) P) := ⟨refl⟩

instance : IsTrans (World κ) (Does P) := ⟨fun _ _ _ => trans⟩

theorem mono {P' : Obs → Prop} (h : Does P w w') (hP : ∀ o, P o → P' o) : Does P' w w' :=
  ⟨h.trace, fun o ho => hP o (h.deeds o ho)⟩

theorem of_idle (h : Idle w w') : Does P w w' := of_same h.session.trace h.deeds

theorem log (w : World κ) {o : Obs} (h : o.isDeed = true → P o) : Does P w (w.log o) := by
  have hsuf : w.trace <:+ (w.log o).trace := List.suffix_cons _ _
  by_cases ho : o.isDeed = true
  · apply of_deeds [o] hsuf (World.deeds_log_deed ho)
    intro x hx
    obtain rfl := List.mem_singleton.mp hx
    exact h ho
  · exact of_same hsuf (World.deeds_log_note (by simpa using ho))

end Does

theorem Does.waits (P : Obs → Prop) : Waits (Does (κ := κ) P) where
  event e w _ := Does.of_idle (Idle.apply e w)
  script w s _ := Does.of_idle (Idle.setScript w s)
  note w o _ hnote _ := Does.of_idle (Idle.log w o hnote)
  take h := Does.of_idle (Idle.waits.take h)

omit [Cipher κ] in
theorem SendEnds.does {P : Obs → Prop} {p : Packet} {w w' : World κ} {res : Res Exc Unit}
    (h : SendEnds w p res w') (hw : w.trace <:+ w'.trace) (hfailed : P (.sendFailed p))
    (hsent : ∀ l, LinkUp w l → P (w.sentObs l p)) : Does P w w' := by
  cases h with
  | down _ _ hd => exact Does.of_deeds [_] hw hd (by simpa using hfailed)
  | tooLong _ hd => exact Does.of_same hw hd
  | failed hl _ hd => exact Does.of_deeds [_, _] hw hd (by simp [hfailed, hsent _ hl])
  | foreign hl _ hd => exact Does.of_deeds [_] hw hd (by simp [hsent _ hl])
  | writing hl hd => exact Does.of_deeds [_] hw hd (by simp [hsent _ hl])
  | sent hl hd => exact Does.of_deeds [_] hw hd (by simp [hsent _ hl])

omit [Cipher κ] in
/-- What a request does is about its own packet. -/
theorem RequestEnds.does {P : Obs → Prop} {p : Packet} {w w' : World κ} {res : Res Exc Packet}
    (h : RequestEnds w p res w') (hw : w.trace <:+ w'.trace) (hfailed : P (.sendFailed p))
    (hsent : ∀ l, LinkUp w l → P (w.sentObs l p)) (hunanswered : ∀ l, P (.unanswered l p))
    (hanswered : ∀ l r i, r.matchesRequest p = true → P (.answered l p r i)) : Does P w w' := by
  cases h with
  | refused hsend => exact hsend.does hw hfailed hsent
  | waiting hl hd => exact Does.of_deeds [_] hw hd (by simp [hsent _ hl])
  | unanswered hl _ hd =>
    exact Does.of_deeds [_, _] hw hd (by simp [hsent _ hl, hunanswered])
  | answered hl hm _ hd =>
    exact Does.of_deeds [_, _] hw hd (by simp [hsent _ hl, hanswered _ _ _ hm])

theorem request_does {P : Obs → Prop} {p : Packet} (t : Option Nat) (hfailed : P (.sendFailed p))
    (hsent : ∀ (w : World κ) l, P (w.sentObs l p)) (hunanswered : ∀ l, P (.unanswered l p))
    (hanswered : ∀ l r i, r.matchesRequest p = true → P (.answered l p r i)) :
    Moves (Does P) (request p t : M κ Packet) := fun w =>
  (request_ends p t w).does (SameSession.asks.request p t w).trace hfailed (fun l _ => hsent w l)
    hunanswered hanswered

theorem send_does {P : Obs → Prop} {p : Packet} (hfailed : P (.sendFailed p))
    (hsent : ∀ (w : World κ) l, P (w.sentObs l p)) : Moves (Does P) (send p : M κ Unit) :=
  fun w => (send_ends p w).does (SameSession.asks.send p w).trace hfailed fun l _ => hsent w l

/-! ## What is sent -/

/-- A later moment of the same session: what was sent since is as `P` says, and
    went to the session's link under the session's keys. -/
structure Sends (P : Packet → Prop) (w w' : World κ) : Prop where
  session : SameSession w w'
  sent : ∀ t l keys p, Obs.sent t l keys p ∈ w.newDeeds w' →
    P p ∧ w.self.client = some l ∧ keys = w.self.crypto.keys

namespace Sends

variable {P : Packet → Prop} {w w' w'' : World κ}

omit [Cipher κ]

theorem of_nothing (h : SameSession w w') (hd : ∀ o ∈ w.newDeeds w', ∀ t l keys p,
    o ≠ .sent t l keys p) : Sends P w w' :=
  ⟨h, fun t l keys p ho => absurd rfl (hd _ ho t l keys p)⟩

theorem refl (w : World κ) : Sends P w w :=
  of_nothing (SameSession.refl w) (by simp [World.newDeeds_self])

theorem trans (h : Sends P w w') (h' : Sends P w' w'') : Sends P w w'' := by
  refine ⟨h.session.trans h'.session, ?_⟩
  intro t l keys p ho
  rw [World.newDeeds_trans h.session.trace h'.session.trace] at ho
  rcases List.mem_append.mp ho with ho | ho
  · obtain ⟨hp, hl, hk⟩ := h'.sent t l keys p ho
    exact ⟨hp, h.session.held hl, hk.trans (congrArg Session.keys h.session.session)⟩
  · exact h.sent t l keys p ho

instance : Std.Refl (Sends (κ := κ) P) := ⟨refl⟩

instance : IsTrans (World κ) (Sends P) := ⟨fun _ _ _ => trans⟩

end Sends

omit [Cipher κ] in
theorem Sends.of_sent {P : Packet → Prop} {w w' : World κ} {p : Packet} (hp : P p)
    (h : SameSession w w') (new : List Obs) {l : Nat} (hl : LinkUp w l)
    (hnew : ∀ o ∈ new, ∀ t l keys q, o ≠ .sent t l keys q)
    (hd : w'.deeds = new ++ w.sentObs l p :: w.deeds) : Sends P w w' := by
  refine ⟨h, ?_⟩
  intro t m keys q ho
  have heq : w.newDeeds w' = new ++ [w.sentObs l p] := by
    apply World.newDeeds_eq _
    rw [hd, List.append_assoc]
    rfl
  rw [heq] at ho
  rcases List.mem_append.mp ho with ho | ho
  · exact absurd rfl (hnew _ ho t m keys q)
  · cases List.mem_singleton.mp ho
    exact ⟨hp, hl.client, rfl⟩

/-- A request sends its own packet and nothing else. -/
theorem request_sends {P : Packet → Prop} {p : Packet} (hp : P p) (t : Option Nat) :
    Moves (Sends P) (request p t : M κ Packet) := by
  intro w
  have h := request_ends p t w
  have hs := request_session p t w
  generalize request p t w = out at h hs
  obtain ⟨res, w'⟩ := out
  cases h with
  | refused hsend =>
    cases hsend with
    | down _ _ hd =>
      exact Sends.of_nothing hs (by simp [World.newDeeds_eq (w := w) [_] hd])
    | tooLong _ hd =>
      exact Sends.of_nothing hs (by simp [World.newDeeds_eq (w := w) [] hd])
    | failed hl _ hd => exact Sends.of_sent hp hs [_] hl (by simp) hd
    | foreign hl _ hd => exact Sends.of_sent hp hs [] hl (by simp) hd
  | waiting hl hd => exact Sends.of_sent hp hs [] hl (by simp) hd
  | unanswered hl _ hd => exact Sends.of_sent hp hs [_] hl (by simp) hd
  | answered hl _ _ hd => exact Sends.of_sent hp hs [_] hl (by simp) hd

end Ninebot
