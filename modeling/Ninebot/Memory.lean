import Ninebot.Connect
import Ninebot.FakeScooter
import Ninebot.Reads

/-! # Reading a constant memory

    A scooter whose memory does not change, and whose replies say what is in
    it, is read correctly: by the bulk read or word by word, and whatever
    happened to the replies to earlier reads.  The reason is that a late reply
    to another request for the same word holds the same bytes. -/

namespace Ninebot

open Coro

variable {κ : Type}

/-! ## The memory and its replies -/

/-- The bytes of each board, two for each word. -/
abbrev Memory : Type := DeviceId → Nat → UInt8

/-- `n` bytes from word `index` on. -/
def Memory.slice (mem : Memory) (board : DeviceId) (index n : Nat) : Bytes :=
  (List.range n).map fun j => mem board (2 * index + j)

theorem Memory.slice_getElem {mem : Memory} {board : DeviceId} {index n j : Nat} (hj : j < n) :
    (mem.slice board index n)[j]? = some (mem board (2 * index + j)) := by
  rw [slice, List.getElem?_map, List.getElem?_range hj]
  rfl

/-- `o` asks for `n` bytes of a board from some word on, and the packet holds
    that board's bytes from that word on: at least `min(n, 2)` of them. -/
def Memory.answers (mem : Memory) (p : Packet) : Obs → Bool
  | .sent _ _ _ q =>
      q.command = .read ∧ q.target = p.source ∧ (q.indexByte.toNat : Int) = p.index ∧
        (q.data.length = 1 ∧ min (q.data.getD 0 0).toNat 2 ≤ p.data.length) ∧
        p.data = mem.slice p.source p.index.toNat p.data.length
  | _ => false

/-- Of what happened, newest first: every READ_ACK answers an earlier READ. -/
def Memory.honest (mem : Memory) : List Obs → Bool
  | [] => true
  | .received _ _ p :: older =>
      (p.command ≠ .readAck || older.any (mem.answers p)) && mem.honest older
  | _ :: older => mem.honest older

theorem Memory.honest_tail {mem : Memory} {o : Obs} {older : List Obs}
    (h : mem.honest (o :: older) = true) : mem.honest older = true := by
  cases o
  case received n l p =>
    rw [honest, Bool.and_eq_true] at h
    exact h.2
  all_goals exact h

theorem Memory.honest_received {mem : Memory} {new : List Obs} {n l : Nat} {p : Packet}
    (h : mem.honest new = true) (hp : .received n l p ∈ new) (hack : p.command = .readAck) :
    ∃ o ∈ new, mem.answers p o = true := by
  induction new with
  | nil => cases hp
  | cons o older ih =>
    rcases List.mem_cons.mp hp with rfl | hp
    · rw [honest, Bool.and_eq_true] at h
      have hany : older.any (mem.answers p) = true := by
        simpa [hack] using h.1
      obtain ⟨o, ho, hanswers⟩ := List.any_eq_true.mp hany
      exact ⟨o, List.mem_cons_of_mem _ ho, hanswers⟩
    · obtain ⟨o', ho', hanswers⟩ := ih (honest_tail h) hp
      exact ⟨o', List.mem_cons_of_mem _ ho', hanswers⟩

/-! ## A connection on which registers are read -/

/-- If this sends a READ, it is one for at least two bytes. -/
def Obs.ReadsWide (o : Obs) : Prop :=
  ∀ time l keys p, o = .sent time l keys p → p.command = .read →
    ∃ n, p.data = [n] ∧ 2 ≤ n.toNat

section

variable [Cipher κ]

/-- What may have happened since the queue was empty: the handshake, reads of
    registers of at least one word, each with any outcome, and events in between. -/
inductive Connection (w₀ : World κ) : World κ → Prop where
  | start : w₀.self.responses = [] → Connection w₀ w₀
  | handshake {w : World κ} : Connection w₀ w → Connection w₀ (handshake w).2
  | read {w : World κ} {register : Register} : Connection w₀ w → 2 ≤ register.length →
      Connection w₀ (readRegister register w).2
  | event {w : World κ} (e : Event) : Connection w₀ w → Connection w₀ (w.apply e)

theorem request_readsWide {p : Packet} (hp : p.command = .read → ∃ n, p.data = [n] ∧ 2 ≤ n.toNat)
    (t : Option Nat) : Moves (Does Obs.ReadsWide) (request p t : M κ Packet) := by
  refine request_does t (by simp [Obs.ReadsWide]) ?_ (by simp [Obs.ReadsWide])
    (by simp [Obs.ReadsWide])
  intro w l _ _ _ q heq hread
  cases heq
  exact hp hread

theorem readRegister_readsWide {register : Register} (hlen : 2 ≤ register.length) :
    Moves (Does Obs.ReadsWide) (readRegister register : M κ Bytes) := by
  refine readRegister_moves (fun hshort => request_readsWide (fun _ => ⟨_, rfl, ?_⟩) none)
    fun word => request_readsWide (fun _ => ⟨2, rfl, by decide⟩) none
  rw [UInt8.toNat_ofNat']
  omega

/-- No request of a handshake but the verification is a READ. -/
theorem greets_readsWide : Greets (Does (κ := κ) Obs.ReadsWide) where
  init := request_readsWide (by simp [initRequest]) none
  ping w := request_readsWide (by simp [pingRequest]) none w
  wait w := by
    refine send_does (by simp [Obs.ReadsWide]) ?_ w
    intro w' l _ _ _ q heq hread
    cases heq
    cases hread
  hear := (Does.waits _).receive _
  pair w _ := request_readsWide (by simp [pairRequest]) none w
  read := readRegister_readsWide (by decide)
  bleData _ _ := Does.of_same (List.suffix_refl _) rfl
  appData _ := Does.of_same (List.suffix_refl _) rfl
  say w _ := Does.log w (by simp [Obs.isDeed])
  done w _ := Does.log w (by simp [Obs.ReadsWide])

theorem readRegister_keepsOrder (start : Nat) (register : Register) :
    Moves (KeepsOrder start) (readRegister register : M κ Bytes) :=
  readRegister_moves (fun _ => (KeepsOrder.asks start).request _ _)
    fun _ => (KeepsOrder.asks start).request _ _

theorem Connection.invariant {w₀ w : World κ} (h : Connection w₀ w) :
    Orderly w₀.trace.length w ∧ Does Obs.ReadsWide w₀ w := by
  induction h with
  | start hempty => exact ⟨Orderly.of_empty hempty, Does.refl w₀⟩
  | @handshake w _ ih =>
    exact ⟨((KeepsOrder.greets _).handshake w).keeps ih.1,
      ih.2.trans (greets_readsWide.handshake w)⟩
  | @read w register _ hlen ih =>
    exact ⟨(readRegister_keepsOrder _ register w).keeps ih.1,
      ih.2.trans (readRegister_readsWide hlen w)⟩
  | @event w e _ ih =>
    exact ⟨(KeepsOrder.apply e w).keeps ih.1, ih.2.trans (Does.of_idle (Idle.apply e w))⟩

omit [Cipher κ] in
theorem Packet.matchesRequest_read {r q : Packet} (hread : q.command = .read)
    (h : r.matchesRequest q = true) :
    r.source = q.target ∧ r.command = .readAck ∧ r.index = q.index := by
  unfold matchesRequest at h
  rw [hread] at h
  by_cases hboard : r.source ≠ q.target ∨ r.target ≠ q.source
  · simp [hboard] at h
  · have hlt : Command.read.toByte < Command.init.toByte := by decide
    simp only [hboard, if_false, hlt, if_true] at h
    by_cases hcmd : r.command ≠ Command.read.response
    · simp [hcmd] at h
    · simp only [hcmd, if_false, decide_eq_true_eq] at h
      simp only [not_or, not_not] at hboard hcmd
      exact ⟨hboard.1, hcmd, h⟩

omit [Cipher κ] in
/-- What is asked of an answer to a READ: the bytes of the memory from the
    word that was asked for, two or more. -/
theorem answer_honest {mem : Memory} {w₀ w : World κ} (ho : Orderly w₀.trace.length w)
    (hs : Does Obs.ReadsWide w₀ w) (hh : mem.honest (w₀.newTrace w) = true) {l : Option Nat}
    {q r : Packet} {i : Nat} (hans : .answered l q r i ∈ w₀.newTrace w)
    (hread : q.command = .read) :
    r.data = mem.slice q.target q.index.toNat r.data.length ∧ 2 ≤ r.data.length := by
  have htrace := hs.trace
  obtain ⟨hm, _, _, hrec⟩ := ho.received_of_answered htrace hans
  obtain ⟨hsource, hcmd, hindex⟩ := Packet.matchesRequest_read hread hm
  -- It answers some request for this word, which was sent on this connection.
  obtain ⟨o, hmem, hanswers⟩ := Memory.honest_received hh hrec hcmd
  cases o
  case sent time link keys q' =>
    have hdeed : .sent time link keys q' ∈ w₀.newDeeds w :=
      (World.mem_newDeeds_iff htrace).mpr ⟨hmem, rfl⟩
    simp only [Memory.answers, decide_eq_true_eq] at hanswers
    obtain ⟨hcommand, _, _, ⟨_, hlen⟩, hdata⟩ := hanswers
    obtain ⟨n, hn, hwide⟩ := hs.deeds _ hdeed time link keys q' rfl hcommand
    rw [hn] at hlen
    rw [hsource, hindex] at hdata
    have htwo : min n.toNat 2 ≤ r.data.length := hlen
    exact ⟨hdata, by omega⟩
  all_goals cases hanswers

/-- The payload is what the memory holds. -/
theorem complete_eq_slice {mem : Memory} {register : Register} {source : Source}
    {payload : Bytes} (h : Complete register source payload)
    (hbyte : ∀ k i b, i < 2 → source.byte k i = some b →
      b = mem register.board (2 * register.index + (2 * k + i))) :
    payload = mem.slice register.board register.index register.length := by
  apply List.ext_getElem?
  intro j
  by_cases hj : j < register.length
  · obtain ⟨b, hb, hpayload⟩ := h.bytes (j / 2) (j % 2) (by omega) (by omega)
    have hsplit : 2 * (j / 2) + j % 2 = j := by omega
    rw [hsplit] at hpayload
    rw [hpayload, Memory.slice_getElem hj, hbyte _ _ b (by omega) hb, hsplit]
  · rw [List.getElem?_eq_none, List.getElem?_eq_none]
    · rw [Memory.slice, List.length_map, List.length_range]
      omega
    · have := h.length
      omega

/-- Whenever a read returns, it returns the register's bytes in memory. -/
theorem readRegister_constant_memory (mem : Memory) {w₀ w w' : World κ} {register : Register}
    {payload : Bytes} (hc : Connection w₀ w) (hlen : 2 ≤ register.length)
    (hrun : readRegister register w = (.ret payload, w'))
    (hh : mem.honest (w₀.newTrace w') = true) :
    payload = mem.slice register.board register.index register.length := by
  obtain ⟨ho, hs⟩ := hc.invariant
  have ho' := (readRegister_keepsOrder _ register w).keeps ho
  have hs' := hs.trans (readRegister_readsWide hlen w)
  have hstep := (readRegister_readsWide hlen w).trace
  have hresult := (readRegister_result register w).ret_of hrun
  rw [hrun] at ho' hs' hstep
  obtain ⟨answers, source, hanswers, hfrom, hcovers⟩ := hresult
  -- Every answer of this read holds bytes of the memory.
  have hfact : ∀ q r, (q, r) ∈ answers → q.command = .read →
      r.data = mem.slice q.target q.index.toNat r.data.length ∧ 2 ≤ r.data.length := by
    intro q r hq hread
    obtain ⟨l, i, hmem⟩ := World.mem_answers hstep hanswers hq
    refine answer_honest (l := l) (i := i) ho' hs' hh ?_ hread
    rw [World.newTrace_trans hs.trace hstep]
    exact List.mem_append_left _ hmem
  cases hfrom with
  | @bulk reply hfull =>
    obtain ⟨hdata, _⟩ := hfact _ _ (List.mem_singleton_self _) rfl
    apply complete_eq_slice (hcovers.mpr hfull)
    intro k i b _ hb
    obtain ⟨hlt, _⟩ := List.getElem?_eq_some_iff.mp hb
    rw [Source.byte, hdata, Memory.slice_getElem hlt] at hb
    exact (Option.some.inj hb).symm
  | @words short replies _ hreplies =>
    have hword : ∀ k reply, replies[k]? = some reply →
        reply.data = mem.slice register.board (register.index + k) reply.data.length ∧
          2 ≤ reply.data.length := by
      intro k reply hk
      obtain ⟨hlt, _⟩ := List.getElem?_eq_some_iff.mp hk
      have hrange : register.words[k]? = some k := List.getElem?_range (by
        rwa [hreplies, Register.words, List.length_range] at hlt)
      have hzip : (readRequest register k 2, reply) ∈
          (register.words.map (readRequest register · 2)).zip replies := by
        apply List.mem_of_getElem? (i := k)
        rw [List.getElem?_zip_eq_some, List.getElem?_map, hrange]
        exact ⟨rfl, hk⟩
      exact hfact _ _ (List.mem_append_right _ hzip) rfl
    refine complete_eq_slice (hcovers.mpr ?_) ?_
    · intro k reply hk
      have := (hword k reply hk).2
      omega
    · intro k i b _ hb
      obtain ⟨reply, hk, hbyte⟩ := Option.bind_eq_some_iff.mp hb
      obtain ⟨hlt, _⟩ := List.getElem?_eq_some_iff.mp hbyte
      rw [(hword k reply hk).1, Memory.slice_getElem hlt] at hbyte
      rw [← Option.some.inj hbyte]
      congr 1
      omega

end

/-- Word `n` of every board holds the two bytes `n` and `n + 1`. -/
def countingMemory : Memory := fun _ j => UInt8.ofNat (j / 2 + j % 2)

def totalDistance : Register :=
  { key := "total_distance", board := .mcu, index := 0xB7, length := 4 }

/-- The bulk reply is truncated and comes twice; the second copy answers the walk. -/
def truncatedBulk : List Step :=
  [.answer .ok, respond 0 (readReply .mcu 0xB7 [0xB7, 0xB8]),
    respond 0 (readReply .mcu 0xB7 [0xB7, 0xB8]), .answer .ok,
    .answer .ok, .answer .ok, respond 0 (readReply .mcu 0xB8 [0xB8, 0xB9]), .answer .ok]

theorem readRegister_truncatedBulk :
    [0xB7, 0xB8, 0xB8, 0xB9] = countingMemory.slice .mcu 0xB7 4 := by
  have hrun : readRegister totalDistance (World.online (fakeClient none) truncatedBulk) =
      (.ret [0xB7, 0xB8, 0xB8, 0xB9],
        (readRegister totalDistance (World.online (fakeClient none) truncatedBulk)).2) :=
    run_eq (by decide +kernel)
  exact readRegister_constant_memory countingMemory (Connection.start rfl) (by decide) hrun
    (by decide +kernel)

end Ninebot
