import Mathlib.Tactic.Ring
import Ninebot.Codec
import Ninebot.FakeScooter
import Ninebot.Steps

/-! # The wire, from end to end

    What one side packs, encrypts and writes in chunks, the other side
    reassembles, decrypts, unpacks and queues.  The cipher is a parameter;
    `Inverts` says what is asked of it. -/

namespace Ninebot

open Coro

/-! ## Frames among stray bytes -/

/-- One encrypted frame: a preamble, a length byte, and as many bytes as it asks for. -/
structure IsFrame (f : Bytes) : Prop where
  magic : proto2Magic <+: f
  length : ∃ n, f[2]? = some n ∧ f.length = n.toNat + 13

/-- Bytes without a preamble. -/
def Stray (s : Bytes) : Prop := ¬ proto2Magic <:+: s

theorem Stray.find_eq_none {s : Bytes} (h : Stray s) :
    Reassembly.find proto2Magic s = none := by
  apply Reassembly.find_eq_none.mpr
  intro j hj
  exact h (hj.isInfix.trans (List.drop_suffix j s).isInfix)

/-- Stray bytes do not hide the frame that follows them: a preamble does not
    begin in the one and end in the other. -/
theorem find_stray {s f : Bytes} (hs : Stray s) (hf : IsFrame f) (t : Bytes) :
    Reassembly.find proto2Magic (s ++ (f ++ t)) = some s.length := by
  refine Reassembly.find_eq_some.mpr ⟨by rw [List.length_append]; omega, ?_, ?_⟩
  · rw [List.drop_left]
    exact hf.magic.trans (List.prefix_append f t)
  · intro j hj hpre
    have hno := Reassembly.find_eq_none.mp hs.find_eq_none j
    rw [List.drop_append_of_le_length (by omega)] at hpre
    by_cases hlast : proto2Magic.length ≤ (s.drop j).length
    · exact hno ((Reassembly.prefix_append_of_le _ hlast).mp hpre)
    · -- Only one stray byte is left, so the second byte is the frame's first.
      obtain ⟨b, hb⟩ : ∃ b, s.drop j = [b] := by
        apply List.length_eq_one_iff.mp
        rw [List.length_drop] at hlast ⊢
        show s.length - j = 1
        have : proto2Magic.length = 2 := rfl
        omega
      obtain ⟨g, rfl⟩ := hf.magic
      rw [hb] at hpre
      simp [proto2Magic] at hpre

theorem nextFrame_stray {s f : Bytes} (hs : Stray s) (hf : IsFrame f) (t : Bytes) :
    nextFrame (s ++ (f ++ t)) = some (f, t) := by
  obtain ⟨n, hn, hlen⟩ := hf.length
  have hget : (f ++ t)[2]? = some n := by
    rw [List.getElem?_append_left (by omega)]
    exact hn
  rw [nextFrame_of_find (find_stray hs hf t), List.drop_left,
    cutFrame_of_complete hget (by rw [List.length_append]; omega), ← hlen, List.take_left,
    List.drop_left]

/-- The frames of a stream into which stray bytes were put. -/
theorem tokens_strays {strays frames : List Bytes} (last : Bytes)
    (hlen : strays.length = frames.length) (hs : ∀ s ∈ strays, Stray s) (hlast : Stray last)
    (hf : ∀ f ∈ frames, IsFrame f) :
    (proto2Tokenizer.tokens ((List.zipWith (· ++ ·) strays frames).flatten ++ last)).1 =
      frames := by
  induction frames generalizing strays with
  | nil =>
    obtain rfl := List.eq_nil_of_length_eq_zero hlen
    show (proto2Tokenizer.tokens last).1 = []
    rw [proto2Tokenizer.tokens_none (nextFrame_of_none hlast.find_eq_none)]
  | cons f fs ih =>
    obtain ⟨s, ss, rfl⟩ := List.exists_cons_of_length_eq_add_one hlen
    have hnext := nextFrame_stray (hs s List.mem_cons_self) (hf f List.mem_cons_self)
      ((List.zipWith (· ++ ·) ss fs).flatten ++ last)
    rw [List.zipWith_cons_cons, List.flatten_cons, List.append_assoc, List.append_assoc,
      proto2Tokenizer.tokens_some hnext,
      ih (by simpa using hlen) (fun x hx => hs x (List.mem_cons_of_mem _ hx))
        (fun x hx => hf x (List.mem_cons_of_mem _ hx))]

/-! ## The cipher -/

section

variable {κ : Type} [Cipher κ]

/-- What is asked of the cipher: under `ks` on one side and `kr` on the other,
    from states related by `sync`, a frame keeps its first three bytes in the
    clear, is six bytes longer than its plaintext, and is decrypted to it. -/
structure Inverts (ks kr : Keys) (sync : κ → κ → Prop) : Prop where
  clear : ∀ s r plaintext, sync s r → 3 ≤ plaintext.length →
    (Cipher.encrypt ks s plaintext).1.take 3 = plaintext.take 3
  overhead : ∀ s r plaintext, sync s r → 3 ≤ plaintext.length →
    (Cipher.encrypt ks s plaintext).1.length = plaintext.length + 6
  inverse : ∀ s r plaintext, sync s r → 3 ≤ plaintext.length →
    (Cipher.decrypt kr r (Cipher.encrypt ks s plaintext).1).1 = .ok plaintext
  inStep : ∀ s r plaintext, sync s r → 3 ≤ plaintext.length →
    sync (Cipher.encrypt ks s plaintext).2 (Cipher.decrypt kr r (Cipher.encrypt ks s plaintext).1).2

/-- Frames encrypted one after the other. -/
def encryptAll (keys : Keys) : κ → List Bytes → List Bytes
  | _, [] => []
  | s, plaintext :: rest =>
      (Cipher.encrypt keys s plaintext).1 ::
        encryptAll keys (Cipher.encrypt keys s plaintext).2 rest

/-- What `pack` makes of a packet whose data is short enough. -/
def Packet.plaintext (self : Packet) : Bytes := self.header ++ self.data

theorem Packet.plaintext_length (self : Packet) : self.plaintext.length = 7 + self.data.length := by
  rw [plaintext, List.length_append]
  rfl

variable {ks kr : Keys} {sync : κ → κ → Prop}

theorem isFrame_encrypt (hc : Inverts ks kr sync) {s r : κ} (hs : sync s r) {p : Packet}
    (hp : p.data.length ≤ maxDataLength) :
    IsFrame (Cipher.encrypt ks s p.plaintext).1 := by
  have hlong : 3 ≤ p.plaintext.length := by
    rw [Packet.plaintext_length]
    omega
  have hclear := hc.clear s r p.plaintext hs hlong
  have hlen := hc.overhead s r p.plaintext hs hlong
  have htake : p.plaintext.take 3 = [0x5A, 0xA5, UInt8.ofNat p.data.length] := rfl
  rw [htake] at hclear
  refine ⟨⟨(Cipher.encrypt ks s p.plaintext).1.drop 2, ?_⟩, UInt8.ofNat p.data.length, ?_, ?_⟩
  · have h2 : (Cipher.encrypt ks s p.plaintext).1.take 2 = proto2Magic := by
      have := congrArg (List.take 2) hclear
      rwa [List.take_take] at this
    rw [← h2, List.take_append_drop]
  · have h3 := congrArg (·[2]?) hclear
    rw [List.getElem?_take_of_lt (by omega)] at h3
    simpa using h3
  · rw [hlen, Packet.plaintext_length, UInt8.toNat_ofNat']
    unfold maxDataLength at hp
    omega

theorem encryptAll_length (keys : Keys) (s : κ) (ps : List Packet) :
    (encryptAll keys s (ps.map Packet.plaintext)).length = ps.length := by
  induction ps generalizing s with
  | nil => rfl
  | cons p ps ih => exact congrArg (· + 1) (ih _)

theorem encryptAll_frames (hc : Inverts ks kr sync) {s r : κ} (hs : sync s r) {ps : List Packet}
    (hps : ∀ p ∈ ps, p.data.length ≤ maxDataLength) :
    ∀ f ∈ encryptAll ks s (ps.map Packet.plaintext), IsFrame f := by
  induction ps generalizing s r with
  | nil => simp [encryptAll]
  | cons p ps ih =>
    have hlong : 3 ≤ p.plaintext.length := by
      rw [Packet.plaintext_length]
      omega
    have hrest := ih (hc.inStep s r _ hs hlong) fun q hq => hps q (List.mem_cons_of_mem _ hq)
    rintro f (_ | ⟨_, hf⟩)
    · exact isFrame_encrypt hc hs (hps p List.mem_cons_self)
    · exact hrest f hf

/-! ## Sending -/

/-- Answers that let an awaited call return. -/
def Step.isOk : Step → Bool
  | .answer .ok => true
  | _ => false

/-- Nothing but time interferes, and no call fails. -/
def Undisturbed (script : List Step) : Prop :=
  ∀ step ∈ script, step = .answer .ok ∨ ∃ n, step = .event (.tick n)

/-- The chunks that were written, in order. -/
def World.written (w : World κ) : List Bytes :=
  w.trace.reverse.filterMap fun o =>
    match o with
    | .wrote _ chunk => some chunk
    | _ => none

/-- Send packets one after the other; return the bytes that were written for each. -/
def sendAll : List Packet → M κ (List Bytes)
  | [] => return []
  | p :: ps => do
      let before ← Coro.get
      send p
      let after ← Coro.get
      let frames ← sendAll ps
      return (after.written.drop before.written.length).flatten :: frames

/-- The same world at a later point of its script. -/
def World.later (w : World κ) (now : Nat) (script : List Step) : World κ :=
  { w with now := now, script := script }

/-- The same world after chunks were written. -/
def World.wroteAll (w : World κ) (l : Nat) (chunks : List Bytes) : World κ :=
  { w with trace := (chunks.map (Obs.wrote l)).reverse ++ w.trace }

theorem awaitCall_undisturbed (done : World κ → World κ) (failed : Exc → World κ → World κ)
    {w : World κ}
    (h : Undisturbed w.script) (hpos : 0 < w.script.countP Step.isOk) :
    ∃ now rest, awaitCall done failed w = (.ret (), done (w.later now rest)) ∧
      Undisturbed rest ∧ rest.countP Step.isOk + 1 = w.script.countP Step.isOk := by
  unfold awaitCall await
  generalize w.script = script at h hpos ⊢
  induction script generalizing w with
  | nil => simp at hpos
  | cons step rest ih =>
    have hrest : Undisturbed rest := fun x hx => h x (List.mem_cons_of_mem _ hx)
    rcases h step List.mem_cons_self with rfl | ⟨n, rfl⟩
    · exact ⟨w.now, rest, rfl, hrest, (List.countP_cons_of_pos rfl).symm⟩
    · have hcount : (Step.event (.tick n) :: rest).countP Step.isOk = rest.countP Step.isOk :=
        List.countP_cons_of_neg Bool.false_ne_true
      rw [hcount] at hpos ⊢
      exact ih (w := w.apply (.tick n)) hrest hpos

theorem writeChunks_undisturbed (chunks : List Bytes) {w : World κ} {l : Nat}
    (hclient : w.self.client = some l) (h : Undisturbed w.script)
    (hpos : chunks.length ≤ w.script.countP Step.isOk) :
    ∃ now rest, writeChunks chunks w =
        (.ret (), (w.later now rest).wroteAll l chunks) ∧
      Undisturbed rest ∧ rest.countP Step.isOk + chunks.length = w.script.countP Step.isOk := by
  induction chunks generalizing w with
  | nil => exact ⟨w.now, w.script, rfl, h, rfl⟩
  | cons c cs ih =>
    rw [List.length_cons] at hpos
    -- Each chunk takes one answer off the script.
    obtain ⟨now, rest, heq, hrest, hcount⟩ :=
      awaitCall_undisturbed (·.log (.wrote l c)) (fun _ w => w.log (.writeFailed l)) h (by omega)
    have hwrite : writeGattChar c w = (.ret (), (w.later now rest).log (.wrote l c)) := by
      rw [writeGattChar, get_bind, hclient]
      exact heq
    obtain ⟨now', rest', heq', hrest', hcount'⟩ :=
      ih (w := (w.later now rest).log (.wrote l c)) hclient hrest
        (show cs.length ≤ rest.countP Step.isOk by omega)
    refine ⟨now', rest', ?_, hrest', ?_⟩
    · rw [writeChunks, bind_apply, hwrite]
      show writeChunks cs _ = _
      rw [heq', World.wroteAll, World.wroteAll, List.map_cons, List.reverse_cons,
        List.append_assoc]
      rfl
    · have : rest'.countP Step.isOk + cs.length = rest.countP Step.isOk := hcount'
      rw [List.length_cons]
      omega

/-- The sending side: its link is up, and enough calls will return. -/
structure Sending (w : World κ) (l : Nat) (keys : Keys) (s : κ) (calls : Nat) : Prop where
  client : w.self.client = some l
  up : w.isUp l = true
  chunk : 0 < w.self.chunkSize
  keys : w.self.crypto.keys = keys
  state : w.self.crypto.state = s
  script : Undisturbed w.script
  calls : calls ≤ w.script.countP Step.isOk

theorem slices_length_le {n : Nat} (hn : 0 < n) (s : Bytes) :
    (Reassembly.slices n s).length ≤ s.length := by
  rw [Reassembly.slices, List.length_map, List.length_range]
  rcases Nat.eq_zero_or_pos s.length with h | h
  · rw [h, Nat.zero_add, Nat.div_eq_of_lt (by omega)]
  · apply Nat.div_le_of_le_mul
    obtain ⟨m, rfl⟩ := Nat.exists_eq_add_of_lt hn
    obtain ⟨k, hk⟩ := Nat.exists_eq_add_of_lt h
    rw [hk]
    have := Nat.zero_le (m * k)
    calc 0 + k + 1 + (0 + m + 1) - 1 ≤ m * k + m + k + 1 := by omega
      _ = (0 + m + 1) * (0 + k + 1) := by ring

omit [Cipher κ] in
theorem World.written_wroteAll (w : World κ) (l : Nat) (chunks : List Bytes) :
    (w.wroteAll l chunks).written = w.written ++ chunks := by
  rw [written, wroteAll, List.reverse_append, List.reverse_reverse, List.filterMap_append,
    List.filterMap_map]
  congr 1
  exact List.filterMap_some

/-- `_send` writes one frame. -/
theorem send_sending {w : World κ} {l n : Nat} {keys : Keys} {s : κ} {p : Packet}
    (h : Sending w l keys s (p.data.length + 13 + n)) (hp : p.data.length ≤ maxDataLength)
    (hlen : (Cipher.encrypt keys s p.plaintext).1.length = p.data.length + 13) :
    ∃ w' chunks, send p w = (.ret (), w') ∧ w'.written = w.written ++ chunks ∧
      chunks.flatten = (Cipher.encrypt keys s p.plaintext).1 ∧
      Sending w' l keys (Cipher.encrypt keys s p.plaintext).2 n := by
  have hcalls := h.calls
  let chunks := Reassembly.slices w.self.chunkSize (Cipher.encrypt keys s p.plaintext).1
  have hslices : chunks.length ≤ _ := slices_length_le h.chunk _
  have hpack : p.pack = .ok p.plaintext := Packet.pack_eq_ok.mpr ⟨hp, rfl⟩
  -- The world in which the chunks are written.
  let w₁ : World κ := (w.setCrypto ⟨keys, (Cipher.encrypt keys s p.plaintext).2⟩).log
    (.sent w.now l keys p)
  obtain ⟨now, rest, hwrite, hrest, hcount⟩ := writeChunks_undisturbed chunks (w := w₁)
    h.client h.script (show _ ≤ w.script.countP Step.isOk by omega)
  have hcount' : rest.countP Step.isOk + chunks.length = w.script.countP Step.isOk := hcount
  have hw₁ : w₁.written = w.written := by
    simp [World.written, w₁, World.log, World.setCrypto]
  refine ⟨(w₁.later now rest).wroteAll l chunks, chunks, ?_, ?_,
    Reassembly.slices_flatten h.chunk _, ?_⟩
  · rw [send, get_bind, h.client]
    simp only [h.up, if_true, hpack, h.keys, h.state]
    rw [modify_bind, h.keys]
    exact bind_of_ret (attempt_of_ret hwrite)
  · rw [← hw₁]
    exact World.written_wroteAll _ l _
  · have hleft : n ≤ rest.countP Step.isOk := by omega
    exact ⟨h.client, h.up, h.chunk, rfl, rfl, hrest, hleft⟩

/-- The packets are encrypted one after the other, under the same keys. -/
theorem sendAll_sending {ks kr : Keys} {sync : κ → κ → Prop} (hc : Inverts ks kr sync)
    {ps : List Packet} {w : World κ} {l : Nat} {s r : κ} (hs : sync s r)
    (hps : ∀ p ∈ ps, p.data.length ≤ maxDataLength)
    (h : Sending w l ks s (ps.map fun p => p.data.length + 13).sum) :
    (sendAll ps w).1 = .ret (encryptAll ks s (ps.map Packet.plaintext)) := by
  induction ps generalizing w s r with
  | nil => rfl
  | cons p ps ih =>
    have hp := hps p List.mem_cons_self
    have hlong : 3 ≤ p.plaintext.length := by
      rw [Packet.plaintext_length]
      omega
    have hlen : (Cipher.encrypt ks s p.plaintext).1.length = p.data.length + 13 := by
      rw [hc.overhead s r _ hs hlong, Packet.plaintext_length]
      omega
    obtain ⟨w', chunks, hsend, hwritten, hflat, h'⟩ := send_sending h hp hlen
    have hrest := ih (hc.inStep s r _ hs hlong) (fun q hq => hps q (List.mem_cons_of_mem _ hq)) h'
    rw [sendAll, get_bind, bind_of_ret hsend, get_bind, bind_apply]
    rcases hall : sendAll ps w' with ⟨res, w''⟩
    rw [hall] at hrest
    obtain rfl : res = _ := hrest
    show Res.ret ((w'.written.drop w.written.length).flatten :: _) = _
    rw [hwritten, List.drop_left, hflat]
    rfl

/-! ## Receiving -/

/-- The receiving side: its link delivers, and it has queued these packets. -/
structure Listening (w : World κ) (l : Nat) (keys : Keys) (r : κ) (queued : List Packet) :
    Prop where
  up : (w.links l).isConnected = true
  subscribed : (w.links l).subscribed = true
  keys : w.self.crypto.keys = keys
  state : w.self.crypto.state = r
  queue : w.self.responses.map Arrival.packet = queued

/-- `_dispatch` queues the packet of a frame that it can decrypt. -/
theorem Listening.dispatch {w : World κ} {l : Nat} {kr : Keys} {r : κ} {queued : List Packet}
    (h : Listening w l kr r queued) {frame raw : Bytes} {p : Packet}
    (hdecrypt : (Cipher.decrypt kr r frame).1 = .ok raw) (hunpack : Packet.unpack raw = .ok p)
    (hroom : queued.length < World.maxResponses) :
    Listening (w.dispatch l frame) l kr (Cipher.decrypt kr r frame).2 (queued ++ [p]) := by
  obtain ⟨hup, hsub, rfl, rfl, rfl⟩ := h
  rw [List.length_map] at hroom
  have hw : w.dispatch l frame =
      ((w.setCrypto ⟨w.self.crypto.keys,
        (Cipher.decrypt w.self.crypto.keys w.self.crypto.state frame).2⟩).log
          (.received w.now l p)).setResponses (w.self.responses ++ [⟨p, w.trace.length⟩]) := by
    rw [World.dispatch]
    generalize Cipher.decrypt w.self.crypto.keys w.self.crypto.state frame = d at hdecrypt ⊢
    obtain ⟨plaintext, state⟩ := d
    obtain rfl : plaintext = .ok raw := hdecrypt
    simp only [hunpack]
    exact if_pos hroom
  rw [hw]
  exact ⟨hup, hsub, rfl, rfl, List.map_append⟩

theorem Listening.foldl_dispatch {ks kr : Keys} {sync : κ → κ → Prop} (hc : Inverts ks kr sync)
    {ps : List Packet} (hps : ∀ p ∈ ps, 0 ≤ p.index ∧ p.index ≤ 255 ∧ p.data.length ≤ maxDataLength)
    {w : World κ} {l : Nat} {s r : κ} {queued : List Packet} (hs : sync s r)
    (h : Listening w l kr r queued) (hroom : queued.length + ps.length ≤ World.maxResponses) :
    ∃ r', Listening ((encryptAll ks s (ps.map Packet.plaintext)).foldl (World.dispatch l) w) l kr r'
      (queued ++ ps) := by
  induction ps generalizing w s r queued with
  | nil =>
    rw [List.append_nil]
    exact ⟨r, h⟩
  | cons p ps ih =>
    rw [List.length_cons] at hroom
    obtain ⟨h0, h1, hlen⟩ := hps p List.mem_cons_self
    have hlong : 3 ≤ p.plaintext.length := by
      rw [Packet.plaintext_length]
      omega
    have hnext := h.dispatch (hc.inverse s r _ hs hlong)
      (Packet.unpack_pack h0 h1 (Packet.pack_eq_ok.mpr ⟨hlen, rfl⟩)) (by omega)
    obtain ⟨r', hr'⟩ := ih (fun q hq => hps q (List.mem_cons_of_mem _ hq))
      (hc.inStep s r _ hs hlong) hnext (by rw [List.length_append, List.length_singleton]; omega)
    rw [List.append_assoc] at hr'
    exact ⟨r', hr'⟩

theorem dispatch_setBuffer (w : World κ) (l : Nat) (b frame : Bytes) :
    (w.setBuffer b).dispatch l frame = (w.dispatch l frame).setBuffer b := by
  unfold World.dispatch
  dsimp only [World.setBuffer]
  rcases Cipher.decrypt w.self.crypto.keys w.self.crypto.state frame with ⟨_ | plaintext, state⟩
  · rfl
  · dsimp only
    cases Packet.unpack plaintext with
    | error _ => rfl
    | ok packet =>
      dsimp only [World.putNowait, World.setCrypto, World.log]
      split <;> rfl

theorem foldl_dispatch_setBuffer (l : Nat) (frames : List Bytes) (w : World κ) (b : Bytes) :
    frames.foldl (World.dispatch l) (w.setBuffer b) =
      (frames.foldl (World.dispatch l) w).setBuffer b := by
  induction frames generalizing w with
  | nil => rfl
  | cons f fs ih => rw [List.foldl_cons, List.foldl_cons, dispatch_setBuffer, ih]

theorem foldl_dispatch_links (l : Nat) (frames : List Bytes) (w : World κ) :
    (frames.foldl (World.dispatch l) w).links = w.links := by
  have hdispatches : Dispatches (Same (World.links (κ := κ))) := by
    refine ⟨fun _ _ => rfl, fun w l p _ => ?_⟩
    show ((w.log (.received w.now l p)).putNowait _).links = w.links
    unfold World.putNowait
    split <;> rfl
  exact hdispatches.foldl l frames w

/-- Notifications on a link that delivers are `_on_notify`, one after the other. -/
theorem foldl_notified {w : World κ} {l : Nat} (hup : (w.links l).isConnected = true)
    (hsub : (w.links l).subscribed = true) (hbuffer : w.self.buffer = []) (notes : List Bytes) :
    notes.foldl (fun w d => w.notified l d) w =
      ((proto2Tokenizer.tokens notes.flatten).1.foldl (World.dispatch l) w).setBuffer
        (proto2Tokenizer.tokens notes.flatten).2 := by
  induction notes using List.reverseRecOn with
  | nil =>
    rw [List.flatten_nil, proto2Tokenizer.tokens_nil rfl, List.foldl_nil, List.foldl_nil,
      ← hbuffer]
    rfl
  | append_singleton notes d ih =>
    have hlinks := foldl_dispatch_links l (proto2Tokenizer.tokens notes.flatten).1 w
    rw [List.foldl_append, List.foldl_cons, List.foldl_nil, ih, List.flatten_append,
      List.flatten_singleton, proto2Tokenizer.tokens_append, World.notified, if_pos, onNotify_eq,
      foldl_dispatch_setBuffer, List.foldl_append]
    · rfl
    · exact ⟨(congrFun hlinks l) ▸ hup, (congrFun hlinks l) ▸ hsub⟩

/-- The wire loses nothing.  Packets that one side sends, with stray bytes put
    before, between and after their frames, and the whole stream cut into
    notifications anywhere, are the packets that the other side queues. -/
theorem sendAll_delivered {ks kr : Keys} {sync : κ → κ → Prop} (hc : Inverts ks kr sync)
    (ps : List Packet) (hcount : ps.length ≤ 64)
    (hps : ∀ p ∈ ps, 0 ≤ p.index ∧ p.index ≤ 255 ∧ p.data.length ≤ 255)
    {sender receiver : World κ} {l m : Nat} {s r : κ} (hsync : sync s r)
    (hsend : Sending sender l ks s (ps.map fun p => p.data.length + 13).sum)
    (hlisten : Listening receiver m kr r []) (hbuffer : receiver.self.buffer = []) :
    ∃ frames, (sendAll ps sender).1 = .ret frames ∧
      ∀ (strays : List Bytes) (last : Bytes) (notes : List Bytes),
        strays.length = ps.length → (∀ s ∈ strays, Stray s) → Stray last →
        notes.flatten = (List.zipWith (· ++ ·) strays frames).flatten ++ last →
        (notes.foldl (fun w d => w.notified m d) receiver).self.responses.map Arrival.packet
          = ps := by
  have hframes := sendAll_sending hc hsync (fun p hp => (hps p hp).2.2) hsend
  refine ⟨_, hframes, ?_⟩
  intro strays last notes hlen hstrays hlast hnotes
  obtain ⟨r', hr'⟩ := Listening.foldl_dispatch hc hps hsync hlisten
    (by simpa [World.maxResponses] using hcount)
  have hfr := encryptAll_frames hc hsync (fun p hp => (hps p hp).2.2)
  have htokens := tokens_strays last
    (hlen.trans (encryptAll_length ks s ps).symm) hstrays hlast hfr
  rw [foldl_notified hlisten.up hlisten.subscribed hbuffer, hnotes, htokens]
  exact hr'.queue

end

theorem StubCrypto.inverts (ks kr : Keys) :
    Inverts ks kr (fun (_ _ : StubCrypto) => True) where
  clear _ _ plaintext _ h := List.take_append_of_le_length h
  overhead _ _ plaintext _ _ := List.length_append
  inverse _ _ plaintext _ _ := by simp [Cipher.encrypt, Cipher.decrypt, cryptoTrailer]
  inStep _ _ _ _ _ := trivial

/-- Two packets, the second with a preamble in its data. -/
theorem sendAll_delivered_stub :
    ∃ frames, (sendAll [initRequest, pairRequest [0x5A, 0xA5]]
        (World.online (fakeClient none) (List.replicate 28 (.answer .ok)))).1 = .ret frames ∧
      ∀ (strays : List Bytes) (last : Bytes) (notes : List Bytes),
        strays.length = 2 → (∀ s ∈ strays, Stray s) → Stray last →
        notes.flatten = (List.zipWith (· ++ ·) strays frames).flatten ++ last →
        (notes.foldl (fun w d => w.notified 0 d)
          (World.online (fakeClient none) [])).self.responses.map Arrival.packet
            = [initRequest, pairRequest [0x5A, 0xA5]] :=
  sendAll_delivered (StubCrypto.inverts { name := [] } { name := [] }) _ (by decide) (by decide)
    (s := .stub) (r := .stub) trivial
    ⟨rfl, rfl, by decide, rfl, rfl, by simp [Undisturbed, World.online, World.ofScript], by decide⟩
    ⟨rfl, rfl, rfl, rfl, rfl⟩ rfl

end Ninebot
