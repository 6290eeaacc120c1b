import Ninebot.Connect
import Ninebot.FakeScooter

/-! # Which request a reply answers

    Replies carry no number: a packet that matches the request that is waiting
    is taken for its answer, also when the scooter sent it in answer to an
    earlier one.  Positions of the trace tell the two apart.

    This file defines:
    - `Replies`: the scooter sends only replies
    - `NoneLate`: no late reply can be mistaken for another one
    - `Fresh`: every answer is the reply to its own request
    - `Uses`: any sequence of calls on one client -/

namespace Ninebot

open Coro

variable {κ : Type}

/-! ## Requests and answers -/

/-- The packet that this sends as a request.  The PAIRs that wait for the user
    are none: they are sent before the session key is set. -/
def Obs.request : Obs → Option Packet
  | .sent _ _ keys p => if p.command = .pair ∧ keys.appData = none then none else some p
  | _ => none

/-- The request that this answers. -/
def Obs.answersTo : Obs → Option Packet
  | .answered _ q _ _ => some q
  | _ => none

/-- `reply i` is the position of the packet that the scooter answered with what
    was received at `i`.  What matches no packet of the client may come unasked. -/
def Replies (w₀ w : World κ) (reply : Nat → Nat) : Prop :=
  ∀ i n l p s o q, w₀.trace.length ≤ i → w.at i = some (.received n l p) →
    w.at s = some o → o.request = some q → p.matchesRequest q = true →
    reply i < i ∧ ∃ o', w.at (reply i) = some o' ∧ o'.isSent = true

/-- When a request is sent, each reply to an earlier packet that would match it
    has been taken or cleared, or comes only after this request is over. -/
def NoneLate (w₀ w : World κ) (reply : Nat → Nat) : Prop :=
  ∀ s o q, w₀.trace.length ≤ s → w.at s = some o → o.request = some q →
    ∀ i n l p, w₀.trace.length ≤ i → w.at i = some (.received n l p) →
      p.matchesRequest q = true → reply i < s →
        (∃ u n' l', w₀.trace.length ≤ u ∧ u < s ∧ w.at u = some (.taken n' l' p i)) ∨
        (∃ u, i < u ∧ u < s ∧ w.at u = some .cleared) ∨
        ∃ e o', s < e ∧ e < i ∧ w.at e = some o' ∧ o'.isDeed = true

/-- Each answer is the reply to its own request, which was sent at `s` and is
    the last thing that the client had done. -/
def Fresh (w₀ w : World κ) (reply : Nat → Nat) : Prop :=
  ∀ t l q r i, w₀.trace.length ≤ t → w.at t = some (.answered l q r i) →
    ∃ s o, w.at s = some o ∧ o.request = some q ∧ s < i ∧ i < t ∧ reply i = s ∧
      ∀ u o', s < u → u < t → w.at u = some o' → o'.isDeed = false

/-! ## Answers follow their requests -/

/-- Among deeds, newest first, each answer directly follows its request. -/
def AnswersFollow : List Obs → Prop
  | [] => True
  | o :: ds => (∀ q, o.answersTo = some q → ds.head?.bind Obs.request = some q) ∧ AnswersFollow ds

theorem AnswersFollow.append {ds ds' : List Obs} (h : AnswersFollow ds) (h' : AnswersFollow ds') :
    AnswersFollow (ds ++ ds') := by
  induction ds with
  | nil => exact h'
  | cons o ds ih =>
    obtain ⟨hfirst, hrest⟩ := h
    refine ⟨fun q hq => ?_, ih hrest⟩
    have hsent := hfirst q hq
    cases ds with
    | nil => cases hsent
    | cons _ _ => exact hsent

theorem AnswersFollow.at {pre ds : List Obs} {o : Obs} (h : AnswersFollow (pre ++ o :: ds))
    {q : Packet}
    (hq : o.answersTo = some q) : ds.head?.bind Obs.request = some q := by
  induction pre with
  | nil => exact h.1 q hq
  | cons _ pre ih => exact ih h.2

/-- Deeds that are no answers. -/
theorem AnswersFollow.of_none {ds : List Obs} (h : ∀ o ∈ ds, o.answersTo = none) :
    AnswersFollow ds := by
  induction ds with
  | nil => trivial
  | cons o ds ih =>
    refine ⟨fun q hq => ?_, ih fun o' ho' => h o' (List.mem_cons_of_mem _ ho')⟩
    rw [h o List.mem_cons_self] at hq
    cases hq

/-- Since `w`, each answer directly follows its request. -/
structure Serves (w w' : World κ) : Prop where
  trace : w.trace <:+ w'.trace
  follow : AnswersFollow (w.newDeeds w')

namespace Serves

variable {w w' w'' : World κ}

theorem of_deeds (new : List Obs) (h : w.trace <:+ w'.trace) (hd : w'.deeds = new ++ w.deeds)
    (hnew : AnswersFollow new) : Serves w w' := by
  refine ⟨h, ?_⟩
  rwa [World.newDeeds_eq new hd]

/-- What is done contains no answer. -/
theorem of_none (new : List Obs) (h : w.trace <:+ w'.trace) (hd : w'.deeds = new ++ w.deeds)
    (hnew : ∀ o ∈ new, o.answersTo = none) : Serves w w' :=
  of_deeds new h hd (AnswersFollow.of_none hnew)

theorem of_same (h : w.trace <:+ w'.trace) (hd : w'.deeds = w.deeds) : Serves w w' :=
  of_none [] h hd (by simp)

theorem refl (w : World κ) : Serves w w := of_same (List.suffix_refl _) rfl

theorem trans (h : Serves w w') (h' : Serves w' w'') : Serves w w'' := by
  refine ⟨h.trace.trans h'.trace, ?_⟩
  rw [World.newDeeds_trans h.trace h'.trace]
  exact h'.follow.append h.follow

instance : Std.Refl (Serves (κ := κ)) := ⟨refl⟩

instance : IsTrans (World κ) Serves := ⟨fun _ _ _ => trans⟩

theorem of_idle (h : Idle w w') : Serves w w' := of_same h.session.trace h.deeds

theorem log (w : World κ) {o : Obs} (ho : o.answersTo = none) : Serves w (w.log o) := by
  have hsuffix : w.trace <:+ (w.log o).trace := List.suffix_cons _ _
  by_cases hdeed : o.isDeed = true
  · exact of_none [o] hsuffix (World.deeds_log_deed hdeed) (by simpa using ho)
  · exact of_same hsuffix (World.deeds_log_note (by simpa using hdeed))

theorem of_plain (w : World κ) {o : Obs} (ho : o.isPlain = true) : Serves w (w.log o) := by
  apply log w
  cases o <;> first | rfl | cases ho

variable [Cipher κ]

theorem waits : Waits (Serves (κ := κ)) where
  event e w _ := of_idle (Idle.apply e w)
  script w s _ := of_idle (Idle.setScript w s)
  note w _ ho _ _ := of_plain w ho
  take h := of_idle (Idle.waits.take h)

omit [Cipher κ] in
theorem of_sendEnds {p : Packet} {res : Res Exc Unit} (h : SendEnds w p res w')
    (hw : w.trace <:+ w'.trace) : Serves w w' := by
  cases h with
  | down _ _ hd => exact of_none [_] hw hd (by simp [Obs.answersTo])
  | tooLong _ hd => exact of_none [] hw hd (by simp)
  | failed _ _ hd => exact of_none [_, _] hw hd (by simp [Obs.answersTo, World.sentObs])
  | foreign _ _ hd => exact of_none [_] hw hd (by simp [Obs.answersTo, World.sentObs])
  | writing _ hd => exact of_none [_] hw hd (by simp [Obs.answersTo, World.sentObs])
  | sent _ hd => exact of_none [_] hw hd (by simp [Obs.answersTo, World.sentObs])

theorem send (p : Packet) (w : World κ) : Serves w (send p w).2 :=
  of_sendEnds (send_ends p w) (SameSession.asks.send p w).trace

omit [Cipher κ] in
/-- A request is answered right after it was sent. -/
theorem of_requestEnds {p : Packet} {res : Res Exc Packet} (h : RequestEnds w p res w')
    (hw : w.trace <:+ w'.trace) (hp : p.command = .pair → w.self.crypto.keys.appData ≠ none) :
    Serves w w' := by
  have hsent : ∀ l, (w.sentObs l p).request = some p := by
    intro l
    show (if p.command = .pair ∧ w.self.crypto.keys.appData = none then none else some p) = some p
    rw [if_neg]
    intro hwait
    exact hp hwait.1 hwait.2
  cases h with
  | refused hsend => exact of_sendEnds hsend hw
  | waiting _ hd => exact of_none [_] hw hd (by simp [Obs.answersTo, World.sentObs])
  | unanswered _ _ hd => exact of_none [_, _] hw hd (by simp [Obs.answersTo, World.sentObs])
  | @answered l _ _ _ _ _ _ _ hd =>
    refine of_deeds [_, _] hw hd ⟨fun q hq => ?_, AnswersFollow.of_none ?_⟩
    · obtain rfl : p = q := Option.some.inj hq
      exact hsent l
    · simp [Obs.answersTo, World.sentObs]

theorem request {p : Packet} (t : Option Nat) {w : World κ}
    (hp : p.command = .pair → w.self.crypto.keys.appData ≠ none) :
    Serves w (Ninebot.request p t w).2 :=
  of_requestEnds (request_ends p t w) (SameSession.asks.request p t w).trace hp

theorem read (register : Register) (word : Nat) (n : UInt8) :
    Moves Serves (Ninebot.request (readRequest register word n) : M κ Packet) := fun _ =>
  request none fun hpair => Command.noConfusion hpair

theorem greets : Greets (Serves (κ := κ)) where
  init _ := request none fun hpair => Command.noConfusion hpair
  ping _ := request none fun hpair => Command.noConfusion hpair
  wait w := send _ w
  hear := waits.receive _
  pair _ hkey := request none fun _ => hkey
  read := readRegister_moves (fun _ => read _ 0 _) fun word => read _ word 2
  bleData _ _ := of_same (List.suffix_refl _) rfl
  appData _ := of_same (List.suffix_refl _) rfl
  say w _ := log w rfl
  done w _ := log w rfl

theorem connects : Connects (Serves (κ := κ)) where
  toWaits := waits
  deed w _ ho := of_plain w ho
  reset _ := of_same (List.suffix_cons _ _) rfl
  linked w rx := by
    have hopen : Serves w { w.setLink w.opened ⟨true, false, rx⟩ with opened := w.opened + 1 } :=
      of_same (List.suffix_refl _) rfl
    exact hopen.trans (log _ rfl)
  client _ _ := of_same (List.suffix_refl _) rfl
  subscribe _ _ _ := of_same (List.suffix_refl _) rfl
  close w l := by
    have hclose : Serves w (w.close l) := of_same (List.suffix_refl _) rfl
    exact hclose.trans (log _ rfl)
  chunkSize _ _ := of_same (List.suffix_refl _) rfl

theorem connect : Moves Serves (connect : M κ Unit) := by
  apply connects.connect greets
  exact World.discarded_of (fun w _ => log w rfl) fun _ _ => of_same (List.suffix_refl _) rfl

end Serves

/-! ## Positions -/

section Positions

variable {w w' : World κ}

/-- Between two positions of the trace. -/
theorem World.mem_of_at_between {later mid rest : List Obs} (h : w.trace = later ++ (mid ++ rest))
    {u : Nat} {o : Obs} (hrest : rest.length ≤ u) (hmid : u < (mid ++ rest).length)
    (hat : w.at u = some o) : o ∈ mid := by
  have hu : u < (rest.reverse ++ mid.reverse).length := by
    rw [List.length_append, Nat.add_comm] at hmid
    simpa using hmid
  rw [World.at, h, List.reverse_append, List.reverse_append, List.getElem?_append_left hu,
    List.getElem?_append_right (by simpa using hrest)] at hat
  exact List.mem_reverse.mp (List.mem_of_getElem? hat)

/-- The request of an answer is the last deed before it. -/
theorem Serves.asked (h : Serves w w') {t i : Nat} {l : Option Nat} {q r : Packet}
    (ht : w.trace.length ≤ t) (hat : w'.at t = some (.answered l q r i)) :
    ∃ s o, w.trace.length ≤ s ∧ s < t ∧ w'.at s = some o ∧ o.request = some q ∧
      ∀ u o', s < u → u < t → w'.at u = some o' → o'.isDeed = false := by
  obtain ⟨later, rest, htrace, hlen⟩ := World.append_of_at hat
  -- The answer came after `w`.
  have hrest : w.trace <:+ rest := by
    have hsuffix : rest <:+ w'.trace :=
      htrace ▸ (List.suffix_cons _ rest).trans (List.suffix_append later _)
    exact List.suffix_of_suffix_length_le h.trace hsuffix (hlen ▸ ht)
  obtain ⟨before, rfl⟩ := hrest
  have hdeeds : w'.deeds = (later.filter Obs.isDeed ++
      .answered l q r i :: before.filter Obs.isDeed) ++ w.deeds := by
    rw [World.deeds, htrace, List.filter_append, List.filter_cons_of_pos rfl, List.filter_append,
      List.append_assoc]
    rfl
  have hfollow := h.follow
  rw [World.newDeeds_eq _ hdeeds] at hfollow
  have hfirst := hfollow.at (q := q) rfl
  cases hbefore : before.filter Obs.isDeed with
  | nil =>
    rw [hbefore] at hfirst
    cases hfirst
  | cons o ds =>
    rw [hbefore] at hfirst
    obtain ⟨quiet, earlier, rfl, hquiet, _, _⟩ := List.filter_eq_cons_iff.mp hbefore
    have hparts : w'.trace =
        (later ++ .answered l q r i :: quiet) ++ o :: (earlier ++ w.trace) := by
      rw [htrace]
      simp
    have hlast : w'.trace = (later ++ [.answered l q r i]) ++
        (quiet ++ o :: (earlier ++ w.trace)) := by
      rw [htrace]
      simp
    refine ⟨(earlier ++ w.trace).length, o, by simp, ?_, World.at_of_append hparts, hfirst, ?_⟩
    · rw [← hlen]
      simp only [List.length_append, List.length_cons]
      omega
    · intro u o' hs hu hat'
      have hmem : o' ∈ quiet := by
        refine World.mem_of_at_between hlast ?_ ?_ hat'
        · simpa using Nat.succ_le_of_lt hs
        · rw [← hlen] at hu
          simpa using hu
      simpa using hquiet o' hmem

end Positions

/-! ## Any calls on one client -/

/-- The states that calls on a client reach, one call after the other.  Each
    call may have any outcome; in between the event loop runs. -/
inductive Uses [Cipher κ] (w₀ : World κ) : World κ → Prop where
  | start : Uses w₀ w₀
  | connect {w : World κ} : Uses w₀ w → Uses w₀ (connect w).2
  | read {w : World κ} (key : String) : Uses w₀ w → Uses w₀ (asyncRead key w).2
  | poll {w : World κ} (includeStatic : Bool) : Uses w₀ w → Uses w₀ (asyncPoll includeStatic w).2
  | disconnect {w : World κ} : Uses w₀ w → Uses w₀ (disconnect w).2
  | event {w : World κ} (e : Event) : Uses w₀ w → Uses w₀ (w.apply e)
  | supply {w : World κ} (script : List Step) (gas : Nat) : Uses w₀ w →
      Uses w₀ { w with script := script, gas := gas }

section Runs

variable [Cipher κ] {w₀ w : World κ}

/-- What each call keeps, any sequence of calls keeps. -/
theorem Uses.moves {R : World κ → World κ → Prop} [Std.Refl R] [IsTrans (World κ) R]
    (hconnect : Moves R (Ninebot.connect : M κ Unit))
    (hread : ∀ register word n, Moves R (request (readRequest register word n) : M κ Packet))
    (hdisconnect : Moves R (Ninebot.disconnect : M κ Unit))
    (hevent : ∀ e w, R w (w.apply e))
    (hsupply : ∀ w script gas, R w { w with script := script, gas := gas })
    (h : Uses w₀ w) : R w₀ w := by
  induction h with
  | start => exact refl_of R w₀
  | connect _ ih => exact trans_of R ih (hconnect _)
  | read key _ ih => exact trans_of R ih (asyncRead_moves hread key _)
  | poll includeStatic _ ih => exact trans_of R ih (asyncPoll_moves hread includeStatic _)
  | disconnect _ ih => exact trans_of R ih (hdisconnect _)
  | event e _ ih => exact trans_of R ih (hevent e _)
  | supply script gas _ ih => exact trans_of R ih (hsupply _ script gas)

theorem uses_serves (h : Uses w₀ w) : Serves w₀ w :=
  h.moves Serves.connect Serves.read Serves.connects.disconnect
    (fun e w => Serves.of_idle (Idle.apply e w))
    fun _ _ _ => Serves.of_same (List.suffix_refl _) rfl

theorem uses_keepsOrder (start : Nat) (h : Uses w₀ w) : KeepsOrder start w₀ w :=
  h.moves (connect_keepsOrder start) (fun _ _ _ => (KeepsOrder.asks start).request _ none)
    (KeepsOrder.connects start).disconnect KeepsOrder.apply fun _ _ _ => KeepsOrder.congr rfl rfl

/-- In every run of calls that begins with an empty queue, and in which no
    reply comes so late that it matches another request, each answer is the
    scooter's reply to its own request. -/
theorem answers_fresh {reply : Nat → Nat} (hqueue : w₀.self.responses = []) (h : Uses w₀ w)
    (hreplies : Replies w₀ w reply) (hlate : NoneLate w₀ w reply) : Fresh w₀ w reply := by
  have horder : Orderly w₀.trace.length w :=
    (uses_keepsOrder _ h).keeps (Orderly.of_empty hqueue)
  intro t l q r i ht hat
  obtain ⟨s, o, hs, hst, hso, hrequest, hquiet⟩ := (uses_serves h).asked ht hat
  obtain ⟨hmatch, t', n', l', ht', htt, htaken⟩ := horder.answered t l q r i ht hat
  obtain ⟨hi, hit, ⟨n, m, hreceived⟩, hkept, _⟩ := horder.taken t' n' l' r i ht' htaken
  obtain ⟨hri, o', hat', hsent⟩ := hreplies i n m r s o q hi hreceived hso hrequest hmatch
  -- The packet was taken after the request was sent.
  have hafter : s < t' := by
    have hne : s ≠ t' := by
      intro heq
      rw [heq, htaken] at hso
      cases hso
      cases hrequest
    omega
  rcases Nat.lt_trichotomy (reply i) s with hearlier | heq | hlater
  · exfalso
    rcases hlate s o q hs hso hrequest i n m r hi hreceived hmatch hearlier with
      ⟨u, n'', l'', hstart, hu, htaken'⟩ | ⟨u, hiu, hu, hcleared⟩ | ⟨e, o'', hse, hei, hate, hdeed⟩
    · -- No packet is taken twice.
      exact Nat.lt_irrefl _
        (horder.fifo u t' n'' n' l'' l' r r i i hstart (by omega) htaken' htaken)
    · -- What is taken has not been cleared.
      exact hkept u (by omega) (by omega) hcleared
    · rw [hquiet e o'' hse (by omega) hate] at hdeed
      cases hdeed
  · exact ⟨s, o, hso, hrequest, heq ▸ hri, by omega, heq, hquiet⟩
  · -- Nothing was sent between a request and its answer.
    have hdeed : o'.isDeed = true := by cases o' <;> first | rfl | cases hsent
    rw [hquiet (reply i) o' hlater (by omega) hat'] at hdeed
    cases hdeed

end Runs

/-! ## Late replies -/

/-- What this takes, and the position at which it was received. -/
def Obs.takes : Obs → Option (Packet × Nat)
  | .taken _ _ p i => some (p, i)
  | _ => none

/-- If what was received at `i` is too late for what was sent at `s` and matches
    it, then it has been taken by then. -/
def World.TakenInTime (w : World κ) (reply : Nat → Nat) (s i : Nat) : Prop :=
  ∀ q ∈ (w.at s).bind Obs.request, ∀ p ∈ (w.at i).bind Obs.heard, p.matchesRequest q = true →
    reply i < s → ∃ u < s, (w.at u).bind Obs.takes = some (p, i)

instance (w : World κ) (reply : Nat → Nat) (s i : Nat) : Decidable (w.TakenInTime reply s i) :=
  inferInstanceAs (Decidable (∀ q ∈ (w.at s).bind Obs.request, ∀ p ∈ (w.at i).bind Obs.heard,
    p.matchesRequest q = true → reply i < s → ∃ u < s, (w.at u).bind Obs.takes = some (p, i)))

section Checks

variable {w₀ w : World κ} {reply : Nat → Nat}

/-- Each packet that is received is the reply to something that was sent. -/
theorem replies_of_sent (h : ∀ i < w.trace.length, ((w.at i).bind Obs.heard).isSome = true →
    reply i < i ∧ (w.at (reply i)).any Obs.isSent = true) : Replies w₀ w reply := by
  intro i n l p s o q _ hreceived _ _ _
  have hsome : ((w.at i).bind Obs.heard).isSome = true := by
    rw [hreceived]
    rfl
  obtain ⟨hlt, hany⟩ := h i (World.at_lt hreceived) hsome
  obtain ⟨o', hat, hsent⟩ := (Option.any_eq_true _ _).mp hany
  exact ⟨hlt, o', hat, hsent⟩

/-- Each reply that comes too late is taken before it can be mistaken. -/
theorem noneLate_of_taken (hstart : w₀.trace = [])
    (h : ∀ s < w.trace.length, ∀ i < w.trace.length, w.TakenInTime reply s i) :
    NoneLate w₀ w reply := by
  intro s o q _ hso hrequest i n l p _ hreceived hmatch hlt
  have hq : q ∈ (w.at s).bind Obs.request := by
    rw [hso]
    exact hrequest
  have hp : p ∈ (w.at i).bind Obs.heard := by
    rw [hreceived]
    rfl
  obtain ⟨u, hu, htakes⟩ := h s (World.at_lt hso) i (World.at_lt hreceived) q hq p hp hmatch hlt
  obtain ⟨o', hat, htakes⟩ := Option.bind_eq_some_iff.mp htakes
  have hstart' : w₀.trace.length ≤ u := by
    rw [hstart]
    exact Nat.zero_le u
  cases o' with
  | taken n' l' p' i' =>
    cases htakes
    exact Or.inl ⟨u, n', l', hstart', hu, hat⟩
  | _ => cases htakes

end Checks

def batteryReply : Packet := readReply .mcu 0xB4 [85, 0]

/-- The reply to the first read comes while the second waits for its own, after
    which the register of the first is read again. -/
def overtaken : World StubCrypto :=
  World.online (fakeClient none) [.answer .ok, .event (.tick 5000), .answer (.fail timerFault),
    .answer .ok, .event (.tick 300), respond 0 batteryReply, .answer .ok,
    respond 0 (readReply .mcu 0xB5 [12, 0]), .answer .ok,
    .answer .ok, respond 0 (readReply .mcu 0xB4 [84, 0]), .answer .ok]

def overtakenTwice : World StubCrypto :=
  (asyncRead "speed" (asyncRead "battery_percent" overtaken).2).2

/-- What was received at 5, at 7 and at 12 replies to what was sent at 0, at 3
    and at 10. -/
def overtakenReply (i : Nat) : Nat := if i < 7 then 0 else if i < 12 then 3 else 10

/-- The late reply is taken by the second read, so that the third gets its own. -/
theorem overtaken_fresh :
    Fresh overtaken (asyncRead "battery_percent" overtakenTwice).2 overtakenReply ∧
      (asyncRead "battery_percent" overtaken).1 =
        .raised ⟨.ninebotTimeoutError, "Timed out waiting for a response"⟩ ∧
      (asyncRead "battery_percent" overtakenTwice).2.at 5 = some (.received 5300 0 batteryReply) ∧
      (asyncRead "battery_percent" overtakenTwice).1 = .ret (.int 84) := by
  have huses : Uses overtaken (asyncRead "battery_percent" overtakenTwice).2 :=
    Uses.read _ (Uses.read _ (Uses.read _ Uses.start))
  have hreplies : Replies overtaken (asyncRead "battery_percent" overtakenTwice).2 overtakenReply :=
    replies_of_sent (by decide +kernel)
  have hlate : NoneLate overtaken (asyncRead "battery_percent" overtakenTwice).2 overtakenReply :=
    noneLate_of_taken rfl (by decide +kernel)
  exact ⟨answers_fresh rfl huses hreplies hlate, by decide +kernel, by decide +kernel,
    by decide +kernel⟩

/-- A read is answered after it has timed out; the next one is sent all the same. -/
def late : World StubCrypto :=
  World.online (fakeClient none) [.answer .ok, .event (.tick 5000), .answer (.fail timerFault),
    .answer .ok]

def lateHeard : World StubCrypto :=
  (asyncRead "battery_percent" late).2.apply (notification 0 batteryReply)

/-- The second read returns the reply to the first, which had timed out. -/
theorem lateReply_answersNext :
    Uses late (asyncRead "battery_percent" lateHeard).2 ∧
      Replies late (asyncRead "battery_percent" lateHeard).2 (fun _ => 0) ∧
      (asyncRead "battery_percent" late).1 =
        .raised ⟨.ninebotTimeoutError, "Timed out waiting for a response"⟩ ∧
      (asyncRead "battery_percent" lateHeard).1 = .ret (.int 85) ∧
      ¬ Fresh late (asyncRead "battery_percent" lateHeard).2 (fun _ => 0) := by
  have huses : Uses late (asyncRead "battery_percent" lateHeard).2 :=
    Uses.read _ (Uses.event _ (Uses.read _ Uses.start))
  refine ⟨huses, replies_of_sent (by decide +kernel), by decide +kernel, by decide +kernel, ?_⟩
  intro hfresh
  have hanswer : (asyncRead "battery_percent" lateHeard).2.at 7 = some (.answered (some 0)
      ⟨.host, .mcu, .read, 0xB4, [2]⟩ batteryReply 3) := by
    decide +kernel
  have hsecond : ((asyncRead "battery_percent" lateHeard).2.at 4).any Obs.isDeed = true := by
    decide +kernel
  obtain ⟨s, _, _, _, _, _, hreply, hquiet⟩ := hfresh 7 _ _ _ _ (Nat.zero_le _) hanswer
  -- It is the reply to the first request, but the second was sent after that.
  obtain ⟨o, ho, hdeed⟩ := (Option.any_eq_true _ _).mp hsecond
  rw [hquiet 4 o (by omega) (by omega) ho] at hdeed
  cases hdeed

end Ninebot
