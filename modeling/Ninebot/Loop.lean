import Ninebot.Lib.Meets
import Ninebot.Outcomes
import Ninebot.Scooter

/-! # The client and the scooter

    The script that the client's awaited calls read from is what the scooter
    makes of what the client writes.  The scooter answers at once, as in the
    tests: its notifications come before the write returns, and a timer fires
    only after a whole request that it does not answer.

    This file defines:
    - `Air`, `Plays`: the scooter as the environment of one link
    - `Meeting`: both sides between two requests
    - `FakeScooter.outcome`: how the read of a register ends -/

namespace Ninebot

open Coro FakeScooter

instance {κ : Type} : Scripted (World κ) Step := ⟨fun script w => w.setScript script⟩

/-! ## The environment -/

/-- The scooter, what was written to it, and whether it said nothing to the
    last of it. -/
structure Air where
  scooter : FakeScooter
  written : List Bytes
  quiet : Bool

/-- `start_notify` -/
def Air.subscribe (self : Air) : Air :=
  { self with scooter := { self.scooter with subscribed := true } }

/-- `stop_notify` -/
def Air.unsubscribe (self : Air) : Air :=
  { self with scooter := { self.scooter with subscribed := false } }

/-- The script of the awaited calls on link `l`.  It does not know the client:
    that the chunks are those that the client writes is said of both together,
    by `written` of the one and of the other. -/
inductive Plays (l : Nat) : Air → List Step → Air → Prop where
  | done {e : Air} : Plays l e [] e
  /-- `establish_connection` and `start_notify` return. -/
  | connect {e e' : Air} {script : List Step} : Plays l e.subscribe script e' →
      Plays l e (.answer (.linked (.found e.scooter.chunkSize)) :: .answer .ok :: script) e'
  /-- The scooter takes a chunk, and says what it has to say before the write returns. -/
  | write {e e' : Air} {S : FakeScooter} {chunk : Bytes} {notes : List Bytes} {script : List Step} :
      e.scooter.writeGattChar chunk = (.ret (), S) → S.notified = e.scooter.notified ++ notes →
      Plays l ⟨S, e.written ++ [chunk], notes.isEmpty⟩ script e' →
      Plays l e (notes.map (fun d => .event (.notify l d)) ++ .answer .ok :: script) e'
  /-- Nothing happens after a whole request until a timer fires. -/
  | silence {e e' : Air} {script : List Step} (n : Nat) : e.quiet = true →
      e.scooter.rxBuffer = [] → Plays l e script e' →
      Plays l e (.event (.tick n) :: .answer (.fail timerFault) :: script) e'
  /-- `stop_notify` and `disconnect` return. -/
  | disconnect {e e' : Air} {script : List Step} : Plays l e.unsubscribe script e' →
      Plays l e (.answer .ok :: .answer .ok :: script) e'

theorem Plays.trans {l : Nat} {e e' e'' : Air} {script script' : List Step}
    (h : Plays l e script e') (h' : Plays l e' script' e'') :
    Plays l e (script ++ script') e'' := by
  induction h with
  | done => exact h'
  | connect _ ih => exact .connect (ih h')
  | write hwrite hnotes _ ih =>
    rw [List.append_assoc]
    exact .write hwrite hnotes (ih h')
  | silence n hquiet hwhole _ ih => exact .silence n hquiet hwhole (ih h')
  | disconnect _ ih => exact .disconnect (ih h')

/-- The scooter on link `l`. -/
def air (l : Nat) : Environment Air Step where
  plays := Plays l
  refl _ := .done
  trans := Plays.trans

/-! ## Hearing -/

section Hearing

variable {l : Nat} {w : World StubCrypto} {answer : Packet} {notes : List Bytes}

/-- The same world with another queue, and more observed. -/
def World.queued {κ : Type} (w : World κ) (responses : List Arrival) (trace : List Obs) : World κ :=
  { w.setResponses responses with trace := trace }

theorem dispatch_frame (hfits : answer.Fits)
    (hroom : w.self.responses.length < World.maxResponses) :
    w.dispatch l (frame answer) =
      w.queued (w.self.responses ++ [⟨answer, w.trace.length⟩])
        (.received w.now l answer :: w.trace) := by
  have hcrypto : w.setCrypto { w.self.crypto with state := w.self.crypto.state } = w := rfl
  have hdecrypt : Cipher.decrypt w.self.crypto.keys w.self.crypto.state (frame answer) =
      (.ok answer.plaintext, w.self.crypto.state) := by
    show (Except.ok _, _) = _
    rw [frame_take]
  rw [World.dispatch, hdecrypt]
  simp only [hcrypto, hfits.unpack]
  exact if_pos hroom

/-- The notifications of an answer, wherever its frame was cut. -/
theorem foldl_notified_answer (hup : (w.links l).isConnected = true)
    (hsub : (w.links l).subscribed = true) (hbuffer : w.self.buffer = [])
    (hroom : w.self.responses.length < World.maxResponses) (hfits : answer.Fits)
    (hflat : notes.flatten = frame answer) :
    notes.foldl (fun w d => w.notified l d) w =
      w.queued (w.self.responses ++ [⟨answer, w.trace.length⟩])
        (.received w.now l answer :: w.trace) := by
  have htokens : proto2Tokenizer.tokens (frame answer) = ([frame answer], []) := by
    have h := (tokens_frames [answer] (by simpa using hfits)).2
    rwa [List.map_singleton, List.flatten_singleton] at h
  rw [foldl_notified hup hsub hbuffer, hflat, htokens, List.foldl_cons, List.foldl_nil,
    dispatch_frame hfits hroom, ← hbuffer]
  rfl

/-- Notifications that come while a call is awaited. -/
theorem awaitFrom_notes {κ α : Type} [Cipher κ]
    (complete : Answer → World κ → Option (Res Exc α × World κ)) (notes : List Bytes)
    (rest : List Step) (w : World κ) :
    awaitFrom complete (notes.map (fun d => Step.event (.notify l d)) ++ rest) w =
      awaitFrom complete rest (notes.foldl (fun w d => w.notified l d) w) := by
  induction notes generalizing w with
  | nil => rfl
  | cons d notes ih => exact ih _

end Hearing

/-! ## Requests -/

/-- Both sides between two requests: the link is up, and nothing is under way. -/
structure Meeting (l : Nat) (e : Air) (w : World StubCrypto) : Prop where
  client : w.self.client = some l
  up : (w.links l).isConnected = true
  subscribed : (w.links l).subscribed = true
  chunkSize : 0 < w.self.chunkSize
  buffer : w.self.buffer = []
  queue : w.self.responses = []
  timeout : 0 < w.self.requestTimeout
  gas : 0 < w.gas
  peer : e.scooter.subscribed = true
  rxBuffer : e.scooter.rxBuffer = []
  written : e.written = w.written

section Requests

variable {l : Nat} {e : Air} {w : World StubCrypto} {p : Packet} {chunk : Bytes}

/-- One write, with what the client hears before it returns. -/
theorem writeGattChar_meets (hclient : w.self.client = some l) {S : FakeScooter}
    {notes : List Bytes} {w₁ : World StubCrypto}
    (hwrite : e.scooter.writeGattChar chunk = (.ret (), S))
    (hnotes : S.notified = e.scooter.notified ++ notes)
    (hheard : ∀ script, notes.foldl (fun w d => w.notified l d) (w.setScript script) =
      w₁.setScript script) :
    Meets (air l) (writeGattChar chunk) e w (.ret ())
      ⟨S, e.written ++ [chunk], notes.isEmpty⟩ (w₁.log (.wrote l chunk)) := by
  refine ⟨_, .write hwrite hnotes .done, fun rest => ?_⟩
  show Ninebot.writeGattChar chunk (w.setScript _) = _
  rw [Ninebot.writeGattChar, Coro.get_bind]
  have hself : ∀ script, (w.setScript script).self.client = some l := fun _ => hclient
  rw [hself]
  show awaitFrom _ _ _ = _
  rw [List.append_assoc]
  show awaitFrom _ (_ ++ _) _ = _
  rw [awaitFrom_notes, hheard]
  rfl

theorem slices_ne_nil {n : Nat} (hn : 0 < n) {s c : Bytes} (h : c ∈ Reassembly.slices n s) :
    c ≠ [] := by
  obtain ⟨i, hi, rfl⟩ := List.mem_map.mp h
  have hlt : i < (s.length + n - 1) / n := List.mem_range.mp hi
  have hroom : (i + 1) * n ≤ s.length + n - 1 := (Nat.le_div_iff_mul_le hn).mp hlt
  rw [Nat.succ_mul] at hroom
  apply List.ne_nil_of_length_pos
  rw [List.length_take, List.length_drop]
  omega

/-- The world in which the scooter's answer was heard. -/
def World.heard (w : World StubCrypto) (l : Nat) (answer : Option Packet) : World StubCrypto :=
  answer.elim w fun p =>
    w.queued (w.self.responses ++ [⟨p, w.trace.length⟩]) (.received w.now l p :: w.trace)

theorem World.written_log (w : World StubCrypto) (l : Nat) (c : Bytes) :
    (w.log (.wrote l c)).written = w.written ++ [c] := by
  simp [World.written, World.log]

theorem World.written_heard (w : World StubCrypto) (l : Nat) (answer : Option Packet) :
    (w.heard l answer).written = w.written := by
  cases answer with
  | none => rfl
  | some p => simp [World.written, World.heard, World.queued]

/-- The scooter's answer is heard while the last chunk is being written. -/
theorem foldl_notified_heard (hup : (w.links l).isConnected = true)
    (hlistens : (w.links l).subscribed = true) (hbuffer : w.self.buffer = [])
    (hqueue : w.self.responses = []) (hp : p.Fits) (S : FakeScooter) (script : List Step) :
    (S.chunks (S.reply p)).foldl (fun w d => w.notified l d) (w.setScript script) =
      (w.heard l (S.reply p)).setScript script := by
  rcases hreply : S.reply p with _ | answer
  · rfl
  · have hroom : (w.setScript script).self.responses.length < World.maxResponses := by
      show w.self.responses.length < World.maxResponses
      rw [hqueue]
      decide
    have hflat : (S.chunks (some answer)).flatten = frame answer := by
      rw [chunks_flatten]
      exact List.append_nil _
    exact foldl_notified_answer (w := w.setScript script) hup hlistens hbuffer hroom
      (reply_fits hp hreply) hflat

/-- The chunks of one request.  Only the last of them is answered. -/
theorem writeChunks_meets {chunks : List Bytes} (hclient : w.self.client = some l)
    (hup : (w.links l).isConnected = true) (hlistens : (w.links l).subscribed = true)
    (hbuffer : w.self.buffer = []) (hqueue : w.self.responses = [])
    (hpeer : e.scooter.subscribed = true) (hp : p.Fits) (hchunks : ∀ c ∈ chunks, c ≠ [])
    (hflat : e.scooter.rxBuffer ++ chunks.flatten = frame p)
    (hopen : cutFrame e.scooter.rxBuffer = none) :
    ∃ quiet trace responses, Meets (air l) (writeChunks chunks) e w (.ret ())
        ⟨(e.scooter.setRxBuffer []).handled p, e.written ++ chunks, quiet⟩
        (w.queued responses trace) ∧
      (e.scooter.reply p = none → quiet = true) ∧
      responses.map Arrival.packet = (e.scooter.reply p).toList ∧
      (w.queued responses trace).written = w.written ++ chunks := by
  have hcut := (isFrame_frame hp).cutFrame []
  rw [List.append_nil] at hcut
  induction chunks generalizing e w with
  | nil =>
    rw [List.flatten_nil, List.append_nil] at hflat
    rw [hflat, hcut] at hopen
    cases hopen
  | cons c chunks ih =>
    rw [List.flatten_cons, ← List.append_assoc] at hflat
    rcases hnext : cutFrame (e.scooter.rxBuffer ++ c) with _ | ⟨f, r⟩
    · -- The frame is not complete: the scooter waits.
      have hwrite := writeGattChar_frames c (List.forall_mem_nil _) hpeer
        (rxTokenizer.tokens_none hnext)
      have hfirst := writeGattChar_meets (w := w) hclient hwrite
        (List.append_nil _).symm fun _ => rfl
      obtain ⟨quiet, trace, responses, hmeets, hquiet, hresponses, hwritten⟩ :=
        ih (e := ⟨e.scooter.setRxBuffer (e.scooter.rxBuffer ++ c), e.written ++ [c], true⟩)
          (w := w.log (.wrote l c)) hclient hup hlistens hbuffer hqueue hpeer
          (fun d hd => hchunks d (List.mem_cons_of_mem _ hd)) hflat hnext
      refine ⟨quiet, trace, responses, ?_, hquiet, hresponses, ?_⟩
      · have hboth := Meets.bind hfirst (f := fun _ => Ninebot.writeChunks chunks) hmeets
        rw [List.append_assoc] at hboth
        exact hboth
      · rw [World.written_log, List.append_assoc] at hwritten
        exact hwritten
    · -- The frame is complete, and this was the last chunk.
      have hwhole := cutFrame_append hnext chunks.flatten
      rw [hflat, hcut] at hwhole
      obtain ⟨rfl, hrest⟩ : frame p = f ∧ [] = r ++ chunks.flatten := by simpa using hwhole
      obtain ⟨rfl, hnone⟩ := List.append_eq_nil_iff.mp hrest.symm
      obtain rfl : chunks = [] := by
        apply List.eq_nil_iff_forall_not_mem.mpr
        intro d hd
        exact hchunks d (List.mem_cons_of_mem _ hd) (List.flatten_eq_nil_iff.mp hnone d hd)
      rw [List.flatten_nil, List.append_nil] at hflat
      have htokens : rxTokenizer.tokens (e.scooter.rxBuffer ++ c) = ([p].map frame, []) := by
        have h := (tokens_frames [p] (by simpa using hp)).1
        rw [List.map_singleton, List.flatten_singleton] at h
        rw [hflat, List.map_singleton]
        exact h
      have hwrite := writeGattChar_frames c (by simpa using hp) hpeer htokens
      have hfirst := writeGattChar_meets (w := w) hclient hwrite
        (handled_notified (S := e.scooter.setRxBuffer []))
        (foldl_notified_heard hup hlistens hbuffer hqueue hp _)
      have hreply : (e.scooter.setRxBuffer []).reply p = e.scooter.reply p := rfl
      rw [hreply] at hfirst
      have hwritten := World.written_log (w.heard l (e.scooter.reply p)) l c
      rcases hanswer : e.scooter.reply p with _ | answer
      · rw [hanswer] at hfirst
        exact ⟨true, _, w.self.responses, Meets.bind hfirst Meets.pure, fun _ => rfl,
          by rw [hqueue]; rfl, World.written_log w l c⟩
      · rw [hanswer] at hfirst hwritten
        refine ⟨_, _, _, Meets.bind hfirst Meets.pure, ?_, ?_, ?_⟩
        · intro h
          cases h
        · rw [hqueue]
          rfl
        · rwa [World.written_heard] at hwritten

/-- `_send` writes the frame of one request. -/
theorem send_meets (h : Meeting l e w) (hp : p.Fits) :
    ∃ quiet written trace responses, Meets (air l) (send p) e w (.ret ())
        ⟨e.scooter.handled p, written, quiet⟩ (w.queued responses trace) ∧
      (e.scooter.reply p = none → quiet = true) ∧
      responses.map Arrival.packet = (e.scooter.reply p).toList ∧
      written = (w.queued responses trace).written := by
  have hpack : p.pack = .ok p.plaintext := hp.pack
  -- The world in which the chunks are written.
  let w₁ : World StubCrypto := w.log (.sent w.now l w.self.crypto.keys p)
  have hclosed : e.scooter.setRxBuffer [] = e.scooter := by
    show { e.scooter with rxBuffer := [] } = e.scooter
    rw [← h.rxBuffer]
  have hflat : e.scooter.rxBuffer ++
      (Reassembly.slices w.self.chunkSize (frame p)).flatten = frame p := by
    rw [h.rxBuffer, Reassembly.slices_flatten h.chunkSize]
    rfl
  obtain ⟨quiet, trace, responses, ⟨script, hplays, hrun⟩, hquiet, hresponses, hwritten⟩ :=
    writeChunks_meets (w := w₁) h.client h.up h.subscribed h.buffer h.queue h.peer hp
      (fun c hc => slices_ne_nil h.chunkSize hc) hflat (by rw [h.rxBuffer]; rfl)
  rw [hclosed] at hplays
  have hw₁ : w₁.written = w.written := by simp [w₁, World.written, World.log]
  refine ⟨quiet, _, trace, responses, ⟨script, hplays, fun rest => ?_⟩, hquiet, hresponses, ?_⟩
  · have hclient : (w.setScript (script ++ rest)).self.client = some l := h.client
    have hlink : (w.setScript (script ++ rest)).isUp l = true := h.up
    show send p (w.setScript (script ++ rest)) = _
    rw [send, Coro.get_bind, hclient]
    simp only [hlink, if_true, hpack]
    rw [Coro.modify_bind]
    exact bind_of_ret (attempt_of_ret (hrun rest))
  · rw [h.written, ← hw₁]
    exact hwritten.symm

/-- The same world, later. -/
def World.since (w : World StubCrypto) (now : Nat) (trace : List Obs) : World StubCrypto :=
  { w with now := now, trace := trace }

theorem Meeting.since (h : Meeting l e w) {e' : Air} {now : Nat} {trace : List Obs}
    (hpeer : e'.scooter.subscribed = true) (hrx : e'.scooter.rxBuffer = [])
    (hwritten : e'.written = (w.since now trace).written) : Meeting l e' (w.since now trace) :=
  { h with peer := hpeer, rxBuffer := hrx, written := hwritten }

theorem Meeting.isConnected (h : Meeting l e w) : w.isConnected = true := by
  rw [World.isConnected, h.client]
  exact h.up

/-- What a request ends with that is not answered. -/
def timedOut : Exc := ⟨.ninebotTimeoutError, "Timed out waiting for a response"⟩

/-- How a request ends. -/
def FakeScooter.hear (self : FakeScooter) (request : Packet) : Except Exc Packet :=
  match self.reply request with
  | some answer => .ok answer
  | none => .error timedOut

/-- A queued packet is taken at once. -/
theorem receive_queued {a : Arrival} (hqueue : w.self.responses = [a]) (timeout : Nat) :
    receive timeout w =
      (.ret a, (w.setResponses []).log (.taken w.now w.self.client a.packet a.receivedAt)) := by
  have hpop : popResponse w =
      some (a, (w.setResponses []).log (.taken w.now w.self.client a.packet a.receivedAt)) := by
    rw [popResponse, hqueue]
  have hget : getResponse timeout w =
      (.ret a, (w.setResponses []).log (.taken w.now w.self.client a.packet a.receivedAt)) := by
    rw [getResponse, hpop]
  rw [receive, bind_of_ret (attempt_of_ret hget)]
  rfl

/-- While nothing comes, the timer of `_receive` fires. -/
theorem receive_silent (hqueue : w.self.responses = []) (timeout : Nat) (rest : List Step) :
    receive timeout (w.setScript (.event (.tick timeout) :: .answer (.fail timerFault) :: rest)) =
      (.raised timedOut, (w.since (w.now + timeout) w.trace).setScript rest) := by
  have hpop : ∀ script, popResponse (w.setScript script) = none := by
    intro script
    show popResponse { w with script := script } = none
    rw [popResponse, hqueue]
  have hget : getResponse timeout
      (w.setScript (.event (.tick timeout) :: .answer (.fail timerFault) :: rest)) =
      (.raised ⟨.timeoutError, ""⟩, (w.since (w.now + timeout) w.trace).setScript rest) := by
    rw [getResponse, hpop]
    have hdue : w.now + timeout ≤ w.now + timeout := Nat.le_refl _
    simp only [await, World.setScript, awaitFrom, World.apply, hdue, if_true]
    rfl
  rw [receive, bind_apply, Coro.attempt, hget]
  rfl

/-- The loop of `_request` with the answer in the queue. -/
theorem requestLoop_queued {a : Arrival} {deadline : Nat} (gas : Nat)
    (hqueue : w.self.responses = [a])
    (hearly : ¬ deadline ≤ w.now) (hmatch : a.packet.matchesRequest p = true) :
    requestLoop p deadline (gas + 1) w = (.ret a.packet,
      ((w.setResponses []).log (.taken w.now w.self.client a.packet a.receivedAt)).log
        (.answered w.self.client p a.packet a.receivedAt)) := by
  have hreceive := receive_queued hqueue (deadline - w.now)
  rw [requestLoop, Coro.get_bind]
  simp only [hearly, if_false]
  rw [bind_of_ret (attempt_of_ret hreceive)]
  simp only [hmatch, if_true]
  rfl

/-- The loop of `_request` while nothing comes. -/
theorem requestLoop_silent {deadline gas : Nat} (hqueue : w.self.responses = [])
    (hearly : ¬ deadline ≤ w.now) (rest : List Step) :
    requestLoop p deadline (gas + 1)
        (w.setScript (.event (.tick (deadline - w.now)) :: .answer (.fail timerFault) :: rest)) =
      (.raised timedOut, ((w.since (w.now + (deadline - w.now)) w.trace).log
        (.unanswered w.self.client p)).setScript rest) := by
  have hreceive : Coro.attempt (·.isInstance [.ninebotTimeoutError]) (receive (deadline - w.now))
      (w.setScript (.event (.tick (deadline - w.now)) :: .answer (.fail timerFault) :: rest)) =
      (.ret (.error timedOut), (w.since (w.now + (deadline - w.now)) w.trace).setScript rest) := by
    rw [Coro.attempt, receive_silent hqueue]
    rfl
  have hnow : ∀ script, (w.setScript script).now = w.now := fun _ => rfl
  rw [requestLoop, Coro.get_bind]
  simp only [hnow, hearly, if_false]
  rw [bind_of_ret hreceive]
  rfl

theorem World.queued_setResponses (hqueue : w.self.responses = []) (responses : List Arrival)
    (trace : List Obs) : (w.queued responses trace).setResponses [] = w.since w.now trace := by
  show { w with self := { w.self with responses := [] }, trace := trace } = w.since w.now trace
  rw [← hqueue]
  rfl

theorem World.written_since {w : World StubCrypto} {o : Obs} {now : Nat} {trace : List Obs}
    (ho : ∀ l c, o ≠ .wrote l c) :
    (w.since now (o :: trace)).written = (w.since now trace).written := by
  unfold World.written World.since
  rw [List.reverse_cons, List.filterMap_append]
  cases o with
  | wrote l c => exact absurd rfl (ho l c)
  | _ => exact List.append_nil _

/-- One request: its answer, or the timeout. -/
theorem request_meets (h : Meeting l e w) (hp : p.Fits)
    (hmatch : ∀ answer, e.scooter.reply p = some answer → answer.matchesRequest p = true) :
    ∃ e' now trace, Meets (air l) (request p) e w (Res.ofExcept (e.scooter.hear p)) e'
        (w.since now trace) ∧
      e'.scooter = e.scooter.handled p ∧ Meeting l e' (w.since now trace) := by
  obtain ⟨quiet, written, trace, responses, hsend, hquiet, hresponses, hwritten⟩ :=
    send_meets h hp
  obtain ⟨gas, hgas⟩ := Nat.exists_eq_succ_of_ne_zero (Nat.ne_zero_of_lt h.gas)
  have hearly : ¬ w.now + w.self.requestTimeout ≤ w.now := by
    have := h.timeout
    omega
  have hpeer : (e.scooter.handled p).subscribed = true := by
    rw [handled_subscribed]
    exact h.peer
  have hrx : (e.scooter.handled p).rxBuffer = [] := by
    rw [handled_rxBuffer]
    exact h.rxBuffer
  have hsame := World.queued_setResponses h.queue responses trace
  have hwritten' : (w.since w.now trace).written = (w.queued responses trace).written := rfl
  have hloop : ∀ (res : Res Exc Packet) (e' : Air) (w' : World StubCrypto),
      Meets (air l) (requestLoop p (w.now + w.self.requestTimeout) (gas + 1))
        ⟨e.scooter.handled p, written, quiet⟩ (w.queued responses trace) res e' w' →
      Meets (air l) (request p) e w res e' w' := by
    intro res e' w' hmeets
    rw [← Nat.succ_eq_add_one, ← hgas] at hmeets
    exact Meets.bind hsend (Meets.get_bind (fun _ => rfl) hmeets)
  unfold hear
  rcases hreply : e.scooter.reply p with _ | answer
  · -- No answer: the timer fires.
    rw [hreply] at hresponses
    obtain rfl : responses = [] := List.map_eq_nil_iff.mp hresponses
    have hlast : Meets (air l) (requestLoop p (w.now + w.self.requestTimeout) (gas + 1))
        ⟨e.scooter.handled p, written, quiet⟩ (w.queued [] trace) (.raised timedOut)
        ⟨e.scooter.handled p, written, quiet⟩
        (w.since (w.now + (w.now + w.self.requestTimeout - w.now))
          (.unanswered w.self.client p :: trace)) := by
      refine ⟨_, .silence (w.now + w.self.requestTimeout - w.now) (hquiet hreply) hrx .done, ?_⟩
      intro rest
      have hnil : w.queued [] trace = w.since w.now trace := hsame
      rw [hnil]
      exact requestLoop_silent (w := w.since w.now trace) h.queue hearly rest
    refine ⟨_, _, _, hloop _ _ _ hlast, rfl, h.since hpeer hrx ?_⟩
    rw [World.written_since (by simp)]
    exact hwritten
  · rw [hreply] at hresponses
    obtain ⟨a, rfl, rfl⟩ : ∃ a, responses = [a] ∧ a.packet = answer :=
      List.map_eq_singleton_iff.mp hresponses
    have hlast : Meets (air l) (requestLoop p (w.now + w.self.requestTimeout) (gas + 1))
        ⟨e.scooter.handled p, written, quiet⟩ (w.queued [a] trace) (.ret a.packet)
        ⟨e.scooter.handled p, written, quiet⟩
        (w.since w.now (.answered w.self.client p a.packet a.receivedAt ::
          .taken w.now w.self.client a.packet a.receivedAt :: trace)) := by
      apply Meets.of_eq
      intro rest
      have hrun := requestLoop_queued (w := (w.queued [a] trace).setScript rest) gas rfl hearly
        (hmatch _ hreply)
      have htaken : ((w.queued [a] trace).setScript rest).setResponses [] =
          (w.since w.now trace).setScript rest := congrArg (·.setScript rest) hsame
      rw [htaken] at hrun
      exact hrun
    refine ⟨_, _, _, hloop _ _ _ hlast, rfl, h.since hpeer hrx ?_⟩
    rw [World.written_since (by simp), World.written_since (by simp)]
    exact hwritten

end Requests

/-! ## Reads -/

/-- Its length fits a byte, and the index byte reaches all of its words. -/
structure Register.Usable (register : Register) : Prop where
  length : register.length < 256
  index : register.index + (register.length + 1) / 2 ≤ 256
  pos : 0 < register.length

instance (register : Register) : Decidable register.Usable :=
  decidable_of_iff (register.length < 256 ∧ register.index + (register.length + 1) / 2 ≤ 256 ∧
    0 < register.length) ⟨fun h => ⟨h.1, h.2.1, h.2.2⟩, fun h => ⟨h.length, h.index, h.pos⟩⟩

theorem registers_areUsable : ∀ register ∈ registers, register.Usable := by decide

/-- From `S` to `S'` the scooter got these reads, in this order, and nothing else. -/
def FakeScooter.Read (asked : List Packet) (S S' : FakeScooter) : Prop :=
  (∀ p ∈ asked, p.command = .read) ∧ ∃ notes,
    S' = { S with requests := S.requests ++ asked, notified := S.notified ++ notes }

/-- From `S` to `S'` the scooter was read, and nothing else. -/
def FakeScooter.OnlyRead (S S' : FakeScooter) : Prop := ∃ asked, FakeScooter.Read asked S S'

/-- What reads are answered from. -/
structure FakeScooter.SameMemory (S S' : FakeScooter) : Prop where
  registers : S'.registers = S.registers
  unreadable : S'.unreadable = S.unreadable
  supportsBulkReads : S'.supportsBulkReads = S.supportsBulkReads

namespace FakeScooter

variable {S S' S'' : FakeScooter} {p : Packet} {register : Register} {word : Nat}

theorem Read.refl (S : FakeScooter) : Read [] S S := by
  refine ⟨by simp, [], ?_⟩
  rw [List.append_nil, List.append_nil]

theorem Read.trans {asked asked' : List Packet} (h : Read asked S S') (h' : Read asked' S' S'') :
    Read (asked ++ asked') S S'' := by
  obtain ⟨hasked, notes, rfl⟩ := h
  obtain ⟨hasked', notes', rfl⟩ := h'
  refine ⟨fun p hp => ?_, notes ++ notes', ?_⟩
  · exact (List.mem_append.mp hp).elim (hasked p) (hasked' p)
  · simp only [List.append_assoc]

theorem read_handled (hread : p.command = .read) : Read [p] S (S.handled p) := by
  refine ⟨by simpa using hread, S.chunks (S.reply p), ?_⟩
  unfold handled noted
  rw [hread]
  rfl

theorem Read.only {asked : List Packet} (h : Read asked S S') : S.OnlyRead S' := ⟨asked, h⟩

theorem OnlyRead.refl (S : FakeScooter) : S.OnlyRead S := (Read.refl S).only

theorem OnlyRead.trans (h : S.OnlyRead S') (h' : S'.OnlyRead S'') : S.OnlyRead S'' := by
  obtain ⟨asked, h⟩ := h
  obtain ⟨asked', h'⟩ := h'
  exact (h.trans h').only

/-- The words of a register, read one at a time. -/
def walked (self : FakeScooter) (register : Register) : List Nat → Bytes → Except Exc Bytes
  | [], payload => .ok payload
  | word :: rest, payload =>
      match self.hear (readRequest register word 2) with
      | .error e => .error e
      | .ok response => self.walked register rest (payload ++ response.data.take 2)

/-- The requests for the given words, up to the first one that is not answered. -/
def wordRequests (self : FakeScooter) (register : Register) : List Nat → List Packet
  | [] => []
  | word :: rest =>
      readRequest register word 2 ::
        match self.hear (readRequest register word 2) with
        | .error _ => []
        | .ok _ => self.wordRequests register rest

/-- The requests for a register after its bulk read. -/
def laterRequests (self : FakeScooter) (register : Register) : Except Exc Packet → List Packet
  | .ok response =>
      if response.data.length ≥ register.length then []
      else self.wordRequests register register.words
  | .error _ =>
      if register.length ≤ wordSize then [] else self.wordRequests register register.words

/-- The requests for a register. -/
def readRequests (self : FakeScooter) (register : Register) : List Packet :=
  readRequest register 0 (UInt8.ofNat register.length) :: self.laterRequests register
    (self.hear (readRequest register 0 (UInt8.ofNat register.length)))

/-- How the read of a register ends. -/
def outcome (self : FakeScooter) (register : Register) : Outcome :=
  match self.hear (readRequest register 0 (UInt8.ofNat register.length)) with
  | .ok response =>
      if response.data.length ≥ register.length then .ok (response.data.take register.length)
      else (self.walked register register.words []).map (·.take register.length)
  | .error e =>
      if register.length ≤ wordSize then .error e
      else (self.walked register register.words []).map (·.take register.length)

theorem OnlyRead.sameMemory (h : S.OnlyRead S') : S.SameMemory S' := by
  obtain ⟨_, _, _, rfl⟩ := h
  exact ⟨rfl, rfl, rfl⟩

theorem SameMemory.trans (h : S.SameMemory S') (h' : S'.SameMemory S'') : S.SameMemory S'' :=
  ⟨h'.registers.trans h.registers, h'.unreadable.trans h.unreadable,
    h'.supportsBulkReads.trans h.supportsBulkReads⟩

theorem sameMemory_handled : S.SameMemory (S.handled p) := by
  unfold handled noted
  split
  · split <;> exact ⟨rfl, rfl, rfl⟩
  · exact ⟨rfl, rfl, rfl⟩

theorem SameMemory.hear (h : S.SameMemory S') (hread : p.command = .read) :
    S'.hear p = S.hear p := by
  have hanswer : S'.readAnswer p = S.readAnswer p := by
    unfold FakeScooter.readAnswer
    rw [h.registers, h.unreadable, h.supportsBulkReads]
  unfold FakeScooter.hear FakeScooter.reply
  rw [hread]
  simp only [hanswer]

theorem SameMemory.walked (h : S.SameMemory S') (words : List Nat) (payload : Bytes) :
    S'.walked register words payload = S.walked register words payload := by
  induction words generalizing payload with
  | nil => rfl
  | cons word words ih =>
    rw [FakeScooter.walked, FakeScooter.walked, h.hear rfl]
    rcases S.hear (readRequest register word 2) with e | response
    · rfl
    · exact ih _

theorem SameMemory.wordRequests (h : S.SameMemory S') (words : List Nat) :
    S'.wordRequests register words = S.wordRequests register words := by
  induction words with
  | nil => rfl
  | cons word words ih => rw [FakeScooter.wordRequests, FakeScooter.wordRequests, h.hear rfl, ih]

theorem SameMemory.outcome (h : S.SameMemory S') : S'.outcome register = S.outcome register := by
  unfold FakeScooter.outcome
  rw [h.hear rfl, h.walked]

theorem readRequest_fits (h : register.Usable) (hword : word < (register.length + 1) / 2)
    (n : UInt8) : (readRequest register word n).Fits := by
  have hindex := h.index
  refine ⟨?_, ?_, Nat.le_of_ble_eq_true rfl⟩
  · show (0 : Int) ≤ (register.index : Int) + word
    omega
  · show (register.index : Int) + word ≤ 255
    omega

/-- A scooter answers with the board and the index that it was asked for. -/
theorem reply_matches_read {answer : Packet} {n : UInt8}
    (h : S.reply (readRequest register word n) = some answer) :
    answer.matchesRequest (readRequest register word n) = true := by
  obtain ⟨payload, rfl⟩ := readAnswer_eq_some h
  simp [Packet.matchesRequest, readRequest, readReply, Command.response]

end FakeScooter

section Reads

variable {l : Nat} {e : Air} {w : World StubCrypto} {register : Register}

/-- One read request. -/
theorem readRequest_meets (h : Meeting l e w) (hregister : register.Usable) {word : Nat}
    (hword : word < (register.length + 1) / 2) (n : UInt8) :
    ∃ e' now trace, Meets (air l) (request (readRequest register word n)) e w
        (Res.ofExcept (e.scooter.hear (readRequest register word n))) e' (w.since now trace) ∧
      Read [readRequest register word n] e.scooter e'.scooter ∧
      Meeting l e' (w.since now trace) := by
  obtain ⟨e', now, trace, hmeets, hscooter, hmeeting⟩ :=
    request_meets h (readRequest_fits hregister hword n) fun _ hreply => reply_matches_read hreply
  refine ⟨e', now, trace, hmeets, ?_, hmeeting⟩
  rw [hscooter]
  exact read_handled rfl

theorem walk_meets (hregister : register.Usable) {words : List Nat}
    (hwords : ∀ word ∈ words, word < (register.length + 1) / 2) (payload : Bytes)
    (h : Meeting l e w) :
    ∃ e' now trace, Meets (air l) (walk register words payload) e w
        (Res.ofExcept (e.scooter.walked register words payload)) e' (w.since now trace) ∧
      Read (e.scooter.wordRequests register words) e.scooter e'.scooter ∧
      Meeting l e' (w.since now trace) := by
  induction words generalizing payload e w with
  | nil => exact ⟨e, w.now, w.trace, Meets.pure, Read.refl _, h⟩
  | cons word words ih =>
    obtain ⟨e₁, now₁, trace₁, hmeets₁, hread₁, h₁⟩ :=
      readRequest_meets h hregister (hwords word List.mem_cons_self) 2
    rw [FakeScooter.walked, FakeScooter.wordRequests]
    rcases hhear : e.scooter.hear (readRequest register word 2) with x | response
    · rw [hhear] at hmeets₁
      exact ⟨e₁, now₁, trace₁, Meets.bind_raised hmeets₁, hread₁, h₁⟩
    · rw [hhear] at hmeets₁
      obtain ⟨e₂, now₂, trace₂, hmeets₂, hread₂, h₂⟩ :=
        ih (fun word hword => hwords word (List.mem_cons_of_mem _ hword))
          (payload ++ response.data.take 2) h₁
      rw [hread₁.only.sameMemory.walked] at hmeets₂
      rw [hread₁.only.sameMemory.wordRequests] at hread₂
      exact ⟨e₂, now₂, trace₂, Meets.bind hmeets₁ hmeets₂, hread₁.trans hread₂, h₂⟩

theorem walkRegister_meets (hregister : register.Usable) (h : Meeting l e w) :
    ∃ e' now trace, Meets (air l) (walkRegister register) e w
        (Res.ofExcept ((e.scooter.walked register register.words []).map
          (·.take register.length))) e' (w.since now trace) ∧
      Read (e.scooter.wordRequests register register.words) e.scooter e'.scooter ∧
      Meeting l e' (w.since now trace) := by
  obtain ⟨e', now, trace, hmeets, hread, h'⟩ :=
    walk_meets hregister (fun word (hword : word ∈ register.words) => List.mem_range.mp hword) [] h
  refine ⟨e', now, trace, ?_, hread, h'⟩
  rcases hwalked : e.scooter.walked register register.words [] with x | payload
  · rw [hwalked] at hmeets
    exact Meets.bind_raised hmeets
  · rw [hwalked] at hmeets
    exact Meets.bind hmeets Meets.pure

/-- The read of one register. -/
theorem readRegister_meets (hregister : register.Usable) (h : Meeting l e w) :
    ∃ e' now trace, Meets (air l) (readRegister register) e w
        (Res.ofExcept (e.scooter.outcome register)) e' (w.since now trace) ∧
      Read (e.scooter.readRequests register) e.scooter e'.scooter ∧
      Meeting l e' (w.since now trace) := by
  have hpos := hregister.pos
  have hfirst : 0 < (register.length + 1) / 2 := by omega
  obtain ⟨e₁, now₁, trace₁, hmeets₁, hread₁, h₁⟩ :=
    readRequest_meets h hregister hfirst (UInt8.ofNat register.length)
  have hbulk : Meets (air l) (bulkRead register) e w
      (Res.ofExcept (e.scooter.hear (readRequest register 0 (UInt8.ofNat register.length)))) e₁
      (w.since now₁ trace₁) := by
    rw [bulkRead, if_pos hregister.length]
    exact hmeets₁
  -- The walk is prepared here, whether it will be needed or not.
  obtain ⟨e₂, now₂, trace₂, hmeets₂, hread₂, h₂⟩ := walkRegister_meets hregister h₁
  rw [hread₁.only.sameMemory.walked] at hmeets₂
  rw [hread₁.only.sameMemory.wordRequests] at hread₂
  unfold FakeScooter.outcome FakeScooter.readRequests
  rcases hhear : e.scooter.hear (readRequest register 0 (UInt8.ofNat register.length)) with
    x | response
  · rw [hhear] at hbulk
    have hx : x.isInstance [.ninebotTimeoutError] = true := by
      unfold FakeScooter.hear at hhear
      split at hhear
      · cases hhear
      · cases hhear
        rfl
    -- No answer to the bulk read: a short register is given up, a long one is walked.
    have hcaught := Meets.attempt_caught hbulk hx
    by_cases hshort : register.length ≤ wordSize
    · have hnone : e.scooter.laterRequests register (.error x) = [] := if_pos hshort
      rw [hnone]
      refine ⟨e₁, now₁, trace₁, Meets.bind hcaught ?_, hread₁, h₁⟩
      simp only [hshort, if_true]
      exact Meets.raise
    · have hwords : e.scooter.laterRequests register (.error x) =
          e.scooter.wordRequests register register.words := if_neg hshort
      rw [hwords]
      refine ⟨e₂, now₂, trace₂, Meets.bind hcaught ?_, hread₁.trans hread₂, h₂⟩
      simp only [hshort, if_false]
      exact hmeets₂
  · rw [hhear] at hbulk
    -- An answer that is too short is not used, and the words are read.
    by_cases hlong : response.data.length ≥ register.length
    · have hnone : e.scooter.laterRequests register (.ok response) = [] := if_pos hlong
      rw [hnone]
      refine ⟨e₁, now₁, trace₁, Meets.bind (Meets.attempt hbulk) ?_, hread₁, h₁⟩
      simp only [hlong, if_true]
      exact Meets.pure
    · have hwords : e.scooter.laterRequests register (.ok response) =
          e.scooter.wordRequests register register.words := if_neg hlong
      rw [hwords]
      refine ⟨e₂, now₂, trace₂, Meets.bind (Meets.attempt hbulk) ?_, hread₁.trans hread₂, h₂⟩
      simp only [hlong, if_false]
      exact hmeets₂

end Reads

end Ninebot
