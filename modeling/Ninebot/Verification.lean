import Ninebot.Handshake
import Ninebot.Reads

/-! # The verification

    A handshake ends with a read of the serial number, which shows that the
    scooter has the same session key.  Whether it succeeds is up to the answers
    to its requests: one for all of the register, or one for each word.

    This file defines:
    - `SerialRead`: with these answers the verification succeeds
    - `Records`: predicates that follow the answers, READ by READ
    - `Records.verifySession`: the verification, for every such predicate
    - `Judged`: a handshake is complete exactly if the serial number was read over its link -/

namespace Ninebot

open Coro

variable {κ : Type}

/-- With these answers the serial number was read: one of them is for all of
    it, or each of its words has one. -/
def SerialRead (answered : Packet → Packet → Prop) : Prop :=
  (∃ r, answered (bulkRequest serialNumber) r ∧ serialNumber.length ≤ r.data.length) ∨
    ∀ word ∈ serialNumber.words, ∃ r, answered (readRequest serialNumber word 2) r

/-- Only the answers to READs matter. -/
theorem SerialRead.congr {answered answered' : Packet → Packet → Prop}
    (h : ∀ q r, q.command = .read → (answered q r ↔ answered' q r)) :
    SerialRead answered ↔ SerialRead answered' := by
  have hbulk := fun r => h (bulkRequest serialNumber) r rfl
  have hword := fun word r => h (readRequest serialNumber word 2) r rfl
  simp only [SerialRead, hbulk, hword]

/-- Without an answer to a READ it was not read. -/
theorem not_serialRead {answered : Packet → Packet → Prop}
    (h : ∀ q r, q.command = .read → ¬ answered q r) : ¬ SerialRead answered := by
  rintro (⟨r, hr, _⟩ | hall)
  · exact h _ r rfl hr
  · obtain ⟨r, hr⟩ := hall 0 (by decide)
    exact h _ r rfl hr

theorem readRequest_inj {register : Register} {word word' : Nat} {n n' : UInt8}
    (h : readRequest register word n = readRequest register word' n') : word = word' ∧ n = n' := by
  simp only [readRequest, Packet.mk.injEq, List.cons.injEq, and_true, true_and] at h
  exact ⟨by omega, h.2⟩

theorem readRequest_length (register : Register) (word : Nat) (n : UInt8) :
    (readRequest register word n).data.length ≤ maxDataLength := by
  show 1 ≤ maxDataLength
  decide

/-- Requests for the words of this register. -/
def Words (register : Register) (new : Done) : Prop :=
  ∀ x ∈ new, ∃ word, x.1 = readRequest register word 2

theorem Words.append {register : Register} {new : Done} (h : Words register new) (word : Nat)
    (res : Option Packet) : Words register (new ++ [(readRequest register word 2, res)]) := by
  intro x hx
  rcases List.mem_append.mp hx with hx | hx
  · exact h x hx
  · exact ⟨word, congrArg Prod.fst (List.mem_singleton.mp hx)⟩

/-- `I done` holds once the requests were answered as `done` says, unless `F`
    does; the error of a request that was given up is as `K` says. -/
structure Records [Cipher κ] (I : Done → World κ → Prop) (F : World κ → Prop) (K : Exc → Prop) :
    Prop where
  read : ∀ {p : Packet} {done : Done} {w : World κ}, p.command = .read →
    p.data.length ≤ maxDataLength → p ∉ done.map Prod.fst → I done w →
    Triple (request p) w (fun r w' => I ((p, some r) :: done) w')
      (fun e w' => F w' ∨ K e ∧ I ((p, none) :: done) w') (fun _ => True)
  /-- What `F` says stays true. -/
  failed : ∀ w, F w → F (walkRegister serialNumber w).2

namespace Records

variable [Cipher κ] {I : Done → World κ → Prop} {F : World κ → Prop} {J K : Exc → Prop}
  {done : Done} {w : World κ}

/-- Each word is answered, or the walk ends with the first one that is not. -/
theorem walk (h : Records I F K) {register : Register} {words : List Nat} (hnodup : words.Nodup)
    (payload : Bytes) (hI : I done w)
    (hfresh : ∀ word ∈ words, readRequest register word 2 ∉ done.map Prod.fst) :
    Triple (walk register words payload) w
      (fun _ w' => ∃ new, I (new ++ done) w' ∧ Words register new ∧
        ∀ word ∈ words, ∃ r, (readRequest register word 2, some r) ∈ new)
      (fun e w' => F w' ∨ K e ∧ ∃ new, I (new ++ done) w' ∧ Words register new ∧
        ∃ word ∈ words, ∀ r, (readRequest register word 2, some r) ∉ new)
      (fun _ => True) := by
  induction words generalizing payload w done with
  | nil => exact Triple.pure ⟨[], hI, by simp [Words], by simp⟩
  | cons word rest ih =>
    have hword := hfresh word List.mem_cons_self
    obtain ⟨hnot, hrest⟩ := List.nodup_cons.mp hnodup
    refine Triple.bind ((h.read rfl (readRequest_length _ _ _) hword hI).mono (fun _ _ h₁ => h₁) ?_
      fun _ _ => trivial) ?_
    · intro e w₁ h₁
      rcases h₁ with hfailed | ⟨hcls, hI₁⟩
      · exact Or.inl hfailed
      · refine Or.inr ⟨hcls, [(readRequest register word 2, none)], hI₁, ?_, word,
          List.mem_cons_self, by simp⟩
        intro x hx
        exact ⟨word, congrArg Prod.fst (List.mem_singleton.mp hx)⟩
    · intro r w₁ h₁
      -- The words that are left were not read yet.
      have hlater : ∀ word' ∈ rest, readRequest register word' 2 ∉
          ((readRequest register word 2, some r) :: done).map Prod.fst := by
        intro word' hword' hmem
        rcases List.mem_cons.mp hmem with heq | hold
        · obtain ⟨rfl, _⟩ := readRequest_inj heq
          exact hnot hword'
        · exact hfresh word' (List.mem_cons_of_mem _ hword') hold
      refine (ih hrest _ h₁ hlater).mono ?_ ?_ (fun _ _ => trivial)
      · intro _ w₂ h₂
        obtain ⟨new, hI₂, hnew, hall⟩ := h₂
        refine ⟨new ++ [(readRequest register word 2, some r)], ?_, hnew.append word _, ?_⟩
        · rwa [List.append_assoc]
        · intro word' hword'
          rcases List.mem_cons.mp hword' with rfl | hword'
          · exact ⟨r, by simp⟩
          · obtain ⟨r', hr'⟩ := hall word' hword'
            exact ⟨r', List.mem_append_left _ hr'⟩
      · intro e w₂ h₂
        rcases h₂ with hfailed | ⟨hcls, new, hI₂, hnew, word', hword', hnone⟩
        · exact Or.inl hfailed
        · refine Or.inr ⟨hcls, new ++ [(readRequest register word 2, some r)], ?_,
            hnew.append word _, word', List.mem_cons_of_mem _ hword', fun r' hr' => ?_⟩
          · rwa [List.append_assoc]
          · rcases List.mem_append.mp hr' with hr' | hr'
            · exact hnone r' hr'
            · have heq := congrArg Prod.fst (List.mem_singleton.mp hr')
              obtain ⟨rfl, _⟩ := readRequest_inj heq
              exact hnot hword'

omit [Cipher κ] in
/-- A word of the serial number was not answered, and the answer for all of it,
    if there was one, was too short. -/
theorem unread {new : Done} {res : Option Packet} {word : Nat}
    (hunread : ∀ q ∈ done.map Prod.fst, q.command ≠ .read)
    (hshort : ∀ r, res = some r → r.data.length < serialNumber.length)
    (hnew : Words serialNumber new) (hword : word ∈ serialNumber.words)
    (hnone : ∀ r, (readRequest serialNumber word 2, some r) ∉ new) :
    ¬ SerialRead fun q r => (q, some r) ∈ new ++ (bulkRequest serialNumber, res) :: done := by
  -- What is answered before the walk is no READ, but for the bulk read.
  have hbefore : ∀ n r, (readRequest serialNumber n 2, some r) ∉
      (bulkRequest serialNumber, res) :: done := by
    intro n r hr
    rcases List.mem_cons.mp hr with heq | hold
    · obtain ⟨_, hn⟩ := readRequest_inj (congrArg Prod.fst heq)
      exact absurd hn (by decide)
    · exact hunread _ (List.mem_map_of_mem hold) rfl
  rintro (⟨r, hr, hfull⟩ | hall)
  · rcases List.mem_append.mp hr with hwalked | hearlier
    · obtain ⟨word', heq⟩ := hnew _ hwalked
      obtain ⟨_, hn⟩ := readRequest_inj heq
      exact absurd hn (by decide)
    · rcases List.mem_cons.mp hearlier with heq | hold
      · have hlt := hshort r (Prod.mk.inj heq).2.symm
        omega
      · exact hunread _ (List.mem_map_of_mem hold) rfl
  · obtain ⟨r, hr⟩ := hall word hword
    rcases List.mem_append.mp hr with hwalked | hearlier
    · exact hnone r hwalked
    · exact hbefore word r hearlier

/-- The words of the serial number, after the answer for all of it was too
    short or did not come. -/
theorem walkSerial (h : Records I F K) {res : Option Packet}
    (hI : I ((bulkRequest serialNumber, res) :: done) w)
    (hunread : ∀ q ∈ done.map Prod.fst, q.command ≠ .read)
    (hshort : ∀ r, res = some r → r.data.length < serialNumber.length) :
    Triple (walkRegister serialNumber) w
      (fun _ w' => ∃ new, I (new ++ done) w' ∧ SerialRead fun q r => (q, some r) ∈ new ++ done)
      (fun e w' => F w' ∨ K e ∧ ∃ new, I (new ++ done) w' ∧
        ¬ SerialRead fun q r => (q, some r) ∈ new ++ done)
      (fun _ => True) := by
  have hwords : ∀ word ∈ serialNumber.words, readRequest serialNumber word 2 ∉
      ((bulkRequest serialNumber, res) :: done).map Prod.fst := by
    intro word _ hmem
    rcases List.mem_cons.mp hmem with heq | hold
    · obtain ⟨_, hn⟩ := readRequest_inj heq
      exact absurd hn (by decide)
    · exact hunread _ hold rfl
  -- The bulk read belongs to the new requests.
  have happend : ∀ new : Done, new ++ (bulkRequest serialNumber, res) :: done =
      (new ++ [(bulkRequest serialNumber, res)]) ++ done := by simp
  have hnodup : serialNumber.words.Nodup := List.nodup_range
  refine Triple.bind ((h.walk hnodup [] hI hwords).mono (fun _ _ h₁ => h₁) ?_
    fun _ _ => trivial) ?_
  · intro e w₁ h₁
    rcases h₁ with hfailed | ⟨hcls, new, hI₁, hnew, word, hword, hnone⟩
    · exact Or.inl hfailed
    · have hnot := unread hunread hshort hnew hword hnone
      rw [happend] at hI₁ hnot
      exact Or.inr ⟨hcls, _, hI₁, hnot⟩
  · intro _ w₁ h₁
    obtain ⟨new, hI₁, _, hall⟩ := h₁
    rw [happend] at hI₁
    refine Triple.pure ⟨_, hI₁, Or.inr fun word hword => ?_⟩
    obtain ⟨r, hr⟩ := hall word hword
    exact ⟨r, List.mem_append_left _ (List.mem_append_left _ hr)⟩

/-- The verification returns exactly if the serial number was read. -/
theorem verifySession (h : Records I F K) (hI : I done w)
    (hunread : ∀ q ∈ done.map Prod.fst, q.command ≠ .read)
    (hK : ∀ e, K e → if e.isInstance [.ninebotTimeoutError, .ninebotProtocolError] then
      J ⟨.ninebotAuthError, "Session key rejected: " ++ e.msg⟩ else J e) :
    Triple verifySession w
      (fun _ w' => F w' ∨ ∃ new, I (new ++ done) w' ∧
        SerialRead fun q r => (q, some r) ∈ new ++ done)
      (fun e w' => F w' ∨ J e ∧ ∃ new, I (new ++ done) w' ∧
        ¬ SerialRead fun q r => (q, some r) ∈ new ++ done)
      (fun _ => True) := by
  have hfresh : bulkRequest serialNumber ∉ done.map Prod.fst := fun hmem => hunread _ hmem rfl
  -- From here the words are read: the answer for all of it, if there is one, is too short.
  let T : World κ → Prop := fun w' => F w' ∨
    ∃ res, I ((bulkRequest serialNumber, res) :: done) w' ∧
      ∀ r, res = some r → r.data.length < serialNumber.length
  have hverdict : ∀ {e : Exc} {w' : World κ}, (F w' ∨ K e ∧ ∃ new, I (new ++ done) w' ∧
      ¬ SerialRead fun q r => (q, some r) ∈ new ++ done) →
      if e.isInstance [.ninebotTimeoutError, .ninebotProtocolError] then
        F w' ∨ J ⟨.ninebotAuthError, "Session key rejected: " ++ e.msg⟩ ∧ ∃ new,
          I (new ++ done) w' ∧ ¬ SerialRead fun q r => (q, some r) ∈ new ++ done
      else F w' ∨ J e ∧ ∃ new, I (new ++ done) w' ∧
        ¬ SerialRead fun q r => (q, some r) ∈ new ++ done := by
    intro e w' hended
    rcases hended with hfailed | ⟨hcls, hnot⟩
    · split <;> exact Or.inl hfailed
    · have hcls' := hK e hcls
      split
      · next hcaught =>
        rw [if_pos hcaught] at hcls'
        exact Or.inr ⟨hcls', hnot⟩
      · next hcaught =>
        rw [if_neg hcaught] at hcls'
        exact Or.inr ⟨hcls', hnot⟩
  apply verifySession_triple
  refine readRegister_triple (T := T) ?_ ?_
  · unfold bulkRead
    rw [if_pos (by decide)]
    refine (h.read rfl (readRequest_length _ _ _) hfresh hI).mono ?_ ?_ (fun _ _ => trivial)
    · intro r w₁ h₁
      split
      · next hfull =>
        -- A reply that is long enough verifies the key.
        exact Or.inr ⟨[_], h₁, Or.inl ⟨r, List.mem_cons_self, hfull⟩⟩
      · next hshort =>
        refine Or.inr ⟨some r, h₁, fun r' hr' => ?_⟩
        rw [← Option.some.inj hr']
        exact Nat.lt_of_not_le hshort
    · intro e w₁ h₁
      split
      · -- A timeout of the bulk read is not the end: the words are tried.
        exact h₁.imp id fun hlate => ⟨none, hlate.2, by simp⟩
      · apply hverdict
        refine h₁.imp id fun hlate => ⟨hlate.1, [_], hlate.2, not_serialRead fun q r hq hr => ?_⟩
        rcases List.mem_cons.mp hr with heq | hold
        · cases heq
        · exact hunread q (List.mem_map_of_mem hold) hq
  · intro w₁ h₁
    rcases h₁ with hfailed | ⟨res, hI₁, hshort⟩
    · exact (Triple.of_last (I := F) (h.failed w₁ hfailed)).mono (fun _ _ h₂ => Or.inl h₂)
        (fun _ _ h₂ => hverdict (Or.inl h₂)) fun _ _ => trivial
    · exact (h.walkSerial hI₁ hunread hshort).mono (fun _ _ h₂ => Or.inr h₂)
        (fun _ _ h₂ => hverdict h₂) fun _ _ => trivial

end Records

/-! ## Over one link -/

/-- The request was answered like this over link `l`, since `w₀`. -/
def AnsweredOver (w₀ w : World κ) (l : Nat) (request response : Packet) : Prop :=
  ∃ i, .answered (some l) request response i ∈ w₀.newTrace w

/-- The link over which a READ was answered, or whose handshake is complete. -/
def Obs.verdictOn : Obs → Option Nat
  | .answered l request _ _ => if request.command = .read then l else none
  | .handshaken l => l
  | _ => none

theorem Obs.isDeed_of_verdictOn {o : Obs} {l : Nat} (h : o.verdictOn = some l) :
    o.isDeed = true := by
  cases o <;> first | rfl | cases h

/-- Since `w₁` the READs of `done` were answered over link `l`, and no others. -/
structure ReadsOver (w₁ : World κ) (l : Nat) (done : Done) (w : World κ) : Prop where
  only : ∀ o ∈ w₁.newTrace w, ∀ m, o.verdictOn = some m →
    ∃ q r i, o = .answered (some l) q r i ∧ (q, some r) ∈ done
  all : ∀ q r, q.command = .read → (q, some r) ∈ done → AnsweredOver w₁ w l q r

/-- The same as long as the client holds the link. -/
def ReadsHeld (w₁ : World κ) (l : Nat) (done : Done) (w : World κ) : Prop :=
  w₁.trace <:+ w.trace ∧ (w.self.client = some l → ReadsOver w₁ l done w)

/-- It is enough to compare the answers over the link. -/
theorem serialRead_congr {w₀ w w₁ w' : World κ} {l : Nat}
    (h : ∀ q r i, q.command = .read → (.answered (some l) q r i ∈ w₀.newTrace w ↔
      .answered (some l) q r i ∈ w₁.newTrace w')) :
    SerialRead (AnsweredOver w₀ w l) ↔ SerialRead (AnsweredOver w₁ w' l) :=
  SerialRead.congr fun q r hq => exists_congr fun i => h q r i hq

section OverLink

variable {w₁ w w' : World κ} {l : Nat} {done : Done}

theorem ReadsHeld.refl (w : World κ) (l : Nat) : ReadsHeld w l [] w := by
  refine ⟨List.suffix_refl _, fun _ => ⟨?_, by simp⟩⟩
  simp [w.newTrace_self]

/-- Since `w` nothing was done that tells of a verification. -/
theorem Does.noVerdict (h : Does (·.verdictOn = none) w w') {o : Obs} (ho : o ∈ w.newTrace w') :
    o.verdictOn = none := by
  by_contra hsome
  obtain ⟨m, hm⟩ := Option.ne_none_iff_exists'.mp hsome
  exact hsome (h.deeds o ((World.mem_newDeeds_iff h.trace).mpr ⟨ho, Obs.isDeed_of_verdictOn hm⟩))

theorem ReadsHeld.later (h : ReadsHeld w₁ l done w) (hdoes : Does (·.verdictOn = none) w w')
    (hheld : w'.self.client = some l → w.self.client = some l) : ReadsHeld w₁ l done w' := by
  obtain ⟨hw, hreads⟩ := h
  have hnew := World.newTrace_trans hw hdoes.trace
  refine ⟨hw.trans hdoes.trace, fun hclient => ?_⟩
  obtain ⟨honly, hall⟩ := hreads (hheld hclient)
  refine ⟨?_, ?_⟩
  · intro o ho m hm
    rw [hnew] at ho
    rcases List.mem_append.mp ho with hlater | hearlier
    · rw [hdoes.noVerdict hlater] at hm
      cases hm
    · exact honly o hearlier m hm
  · intro q r hq hmem
    obtain ⟨i, hi⟩ := hall q r hq hmem
    refine ⟨i, ?_⟩
    rw [hnew]
    exact List.mem_append_right _ hi

/-- A request is given up, or is none of those that are counted. -/
theorem ReadsHeld.weaken (h : ReadsHeld w₁ l done w) (p : Packet) :
    ReadsHeld w₁ l ((p, none) :: done) w := by
  refine ⟨h.1, fun hclient => ?_⟩
  obtain ⟨honly, hall⟩ := h.2 hclient
  refine ⟨?_, ?_⟩
  · intro o ho m hm
    obtain ⟨q, r, i, heq, hmem⟩ := honly o ho m hm
    exact ⟨q, r, i, heq, List.mem_cons_of_mem _ hmem⟩
  · intro q r hq hmem
    apply hall q r hq
    simpa using hmem

/-- A request is answered over the link that the client still holds. -/
theorem ReadsHeld.answered (h : ReadsHeld w₁ l done w) (hs : SameSession w w') {p r : Packet}
    {c : Option Nat} {i : Nat} (hc : ∀ m, w'.self.client = some m → c = some m) {sent : Obs}
    (hsent : sent.verdictOn = none) (hdeeds : w'.deeds = .answered c p r i :: sent :: w.deeds) :
    ReadsHeld w₁ l ((p, some r) :: done) w' := by
  obtain ⟨hw, hreads⟩ := h
  have hnew := World.newTrace_trans hw hs.trace
  have hdone : ∀ {o}, o ∈ w.newTrace w' → o.isDeed = true → o = .answered c p r i ∨ o = sent := by
    intro o ho hdeed
    have hmem := (World.mem_newDeeds_iff hs.trace).mpr ⟨ho, hdeed⟩
    rw [World.newDeeds_eq [_, _] hdeeds] at hmem
    simpa using hmem
  refine ⟨hw.trans hs.trace, fun hclient => ?_⟩
  obtain ⟨honly, hall⟩ := hreads (hs.held hclient)
  obtain rfl := hc l hclient
  refine ⟨?_, ?_⟩
  · intro o ho m hm
    rw [hnew] at ho
    rcases List.mem_append.mp ho with hlater | hearlier
    · rcases hdone hlater (Obs.isDeed_of_verdictOn hm) with rfl | rfl
      · exact ⟨p, r, i, rfl, List.mem_cons_self⟩
      · rw [hsent] at hm
        cases hm
    · obtain ⟨q, r', i', heq, hmem⟩ := honly o hearlier m hm
      exact ⟨q, r', i', heq, List.mem_cons_of_mem _ hmem⟩
  · intro q r' hq hmem
    rcases List.mem_cons.mp hmem with heq | hold
    · cases heq
      refine ⟨i, ?_⟩
      rw [hnew]
      apply List.mem_append_left
      have hfirst : .answered (some l) p r i ∈ w.newDeeds w' := by
        rw [World.newDeeds_eq [_, _] hdeeds]
        exact List.mem_cons_self
      exact ((World.mem_newDeeds_iff hs.trace).mp hfirst).1
    · obtain ⟨i', hi'⟩ := hall q r' hq hold
      refine ⟨i', ?_⟩
      rw [hnew]
      exact List.mem_append_right _ hi'

/-- A step that touches neither the trace nor the link. -/
theorem ReadsHeld.congr (h : ReadsHeld w₁ l done w) (htrace : w'.trace = w.trace)
    (hclient : w'.self.client = w.self.client) : ReadsHeld w₁ l done w' := by
  refine h.later (Does.of_same (htrace ▸ List.suffix_refl _) ?_) fun hl => hclient ▸ hl
  rw [World.deeds, World.deeds, htrace]

variable [Cipher κ]

theorem ReadsHeld.request (h : ReadsHeld w₁ l done w) (p : Packet) :
    Triple (Ninebot.request p) w (fun r w' => ReadsHeld w₁ l ((p, some r) :: done) w')
      (fun _ w' => ReadsHeld w₁ l ((p, none) :: done) w') (fun _ => True) := by
  refine (request_triple p none w).mono ?_ ?_ (fun _ _ => trivial)
  · intro r w' hended
    obtain ⟨hs, hends⟩ := hended
    cases hends with
    | answered hl hm hc hdeeds => exact h.answered hs hc rfl hdeeds
  · intro e w' hended
    obtain ⟨hs, hends⟩ := hended
    have hdoes : Does (·.verdictOn = none) w w' := by
      cases hends with
      | refused hsend => exact hsend.does hs.trace rfl fun _ _ => rfl
      | unanswered hl _ hdeeds =>
        exact Does.of_deeds [_, _] hs.trace hdeeds (by simp [World.sentObs, Obs.verdictOn])
    exact (h.later hdoes hs.held).weaken p

/-- The READs that the verification makes. -/
theorem ReadsHeld.records (w₁ : World κ) (l : Nat) :
    Records (ReadsHeld w₁ l) (fun _ => False) (fun _ => True) where
  read _ _ _ h := (h.request _).mono_raised fun _ _ h₁ => Or.inr ⟨trivial, h₁⟩
  failed _ h := h.elim

/-- A request that is no READ. -/
theorem ReadsHeld.aside (h : ReadsHeld w₁ l done w) {p : Packet} (hp : p.command ≠ .read) :
    ReadsHeld w₁ l done (Ninebot.request p none w).2 := by
  have hdoes : Moves (Does (·.verdictOn = none)) (Ninebot.request p : M κ Packet) :=
    request_does none rfl (fun _ _ => rfl) (fun _ => rfl) fun _ _ _ _ => if_neg hp
  exact h.later (hdoes w) (SameSession.asks.request p none w).held

/-- The handshake returns exactly if the READs that were answered verify the key. -/
theorem ReadsHeld.handshake (h : ReadsHeld w₁ l [] w) :
    Triple handshake w
      (fun _ w' => ∃ w₂ done, ReadsHeld w₁ l done w₂ ∧ (SerialRead fun q r => (q, some r) ∈ done) ∧
        w' = w₂.log (.handshaken w₂.self.client))
      (fun _ w' => ∃ done, ReadsHeld w₁ l done w' ∧ ¬ SerialRead fun q r => (q, some r) ∈ done)
      (fun _ => True) := by
  let I : World κ → Prop := ReadsHeld w₁ l []
  -- Before the verification nothing was read.
  have hunread : ¬ SerialRead fun q r => (q, some r) ∈ ([] : Done) :=
    not_serialRead fun _ _ _ => List.not_mem_nil
  have hraised : ∀ w', I w' → ∃ done, ReadsHeld w₁ l done w' ∧
      ¬ SerialRead fun q r => (q, some r) ∈ done := fun _ h' => ⟨[], h', hunread⟩
  have hrequest : ∀ {p : Packet} {w' : World κ}, p.command ≠ .read → I w' →
      Triple (Ninebot.request p) w' (fun _ => I) (fun _ => I) I :=
    fun hp h' => Triple.of_last (h'.aside hp)
  refine handshake_triple (A := I) (B := I) (D := I) (F := I) ?_ ?_ ?_ ?_ ?_
  · refine (hrequest (by decide) h).mono ?_ (fun _ w' => hraised w') (fun _ _ => trivial)
    intro r w' h'
    split
    · exact hraised w' h'
    · exact h'.congr rfl rfl
  · intro w' h'
    refine (hrequest (by simp [pingRequest]) h').mono ?_ (fun _ w'' => hraised w'')
      (fun _ _ => trivial)
    intro r w'' h''
    split
    · exact h''
    · exact h''.congr rfl rfl
  · intro w' h'
    have hquiet : ∀ {w₂ w₃ : World κ}, I w₂ → SameSession w₂ w₃ →
        Does (·.verdictOn = none) w₂ w₃ → I w₃ := fun h₂ hs hdoes => h₂.later hdoes hs.held
    refine (awaitPairing_keeps h' (fun w₂ _ h₂ => ?_) (fun w₂ h₂ => ?_) (fun w₂ h₂ => ?_) hraised
      fun _ _ => trivial).mono_ret ?_
    · exact hquiet h₂ (SameSession.log w₂ _) (Does.log w₂ fun _ => rfl)
    · have hdoes : Moves (Does (·.verdictOn = none))
          (send (pairRequest w₂.self.serialChallenge) : M κ Unit) :=
        send_does rfl fun _ _ => rfl
      exact (Triple.of_last (I := I) (hquiet h₂ (SameSession.asks.send _ w₂) (hdoes w₂))).mono
        (fun _ _ h₃ => h₃) (fun _ w₃ => hraised w₃) fun _ _ => trivial
    · exact hquiet h₂ (SameSession.waits.receive _ w₂) ((Does.waits _).receive _ w₂)
    · exact fun _ _ h₃ => h₃.congr rfl rfl
  · intro w' h'
    exact (hrequest (by simp [pairRequest]) h').mono (fun _ _ h₂ => h₂) (fun _ w₂ => hraised w₂)
      fun _ _ => trivial
  · intro w' h'
    refine ((ReadsHeld.records w₁ l).verifySession (J := fun _ => True) h' (by simp)
      (by simp)).mono ?_ ?_ (fun _ _ => trivial)
    · intro _ w₂ h₂
      obtain ⟨new, hreads, hread⟩ := h₂.resolve_left id
      exact ⟨w₂, _, hreads, hread, rfl⟩
    · intro e w₂ h₂
      obtain ⟨_, new, hreads, hnot⟩ := h₂.resolve_left id
      exact ⟨_, hreads, hnot⟩

/-- Since `w₁` a handshake was made over link `l` and over no other; it is
    complete exactly if the serial number was read. -/
structure Judged (w₁ w : World κ) (l : Nat) : Prop where
  only : ∀ o ∈ w₁.newTrace w, ∀ m, o.verdictOn = some m → m = l
  agree : SerialRead (AnsweredOver w₁ w l) ↔ .handshaken (some l) ∈ w₁.newTrace w

omit [Cipher κ] in
theorem ReadsOver.serialRead_iff (h : ReadsOver w₁ l done w) :
    SerialRead (AnsweredOver w₁ w l) ↔ SerialRead fun q r => (q, some r) ∈ done := by
  apply SerialRead.congr
  intro q r hq
  refine ⟨fun hanswered => ?_, h.all q r hq⟩
  obtain ⟨i, hi⟩ := hanswered
  obtain ⟨q', r', i', heq, hmem⟩ := h.only _ hi l (if_pos hq)
  cases heq
  exact hmem

omit [Cipher κ] in
theorem ReadsOver.link (h : ReadsOver w₁ l done w) {o : Obs} (ho : o ∈ w₁.newTrace w) {m : Nat}
    (hm : o.verdictOn = some m) : m = l := by
  obtain ⟨q, r, i, rfl, _⟩ := h.only o ho m hm
  by_cases hq : q.command = .read
  · rw [Obs.verdictOn, if_pos hq] at hm
    exact (Option.some.inj hm).symm
  · rw [Obs.verdictOn, if_neg hq] at hm
    cases hm

theorem handshake_judged (w : World κ) (l : Nat) :
    Triple handshake w (fun _ w' => w'.self.client = some l → Judged w w' l)
      (fun _ w' => w'.self.client = some l → Judged w w' l) (fun _ => True) := by
  have hunknown : ∀ {w' done}, ReadsOver w l done w' → .handshaken (some l) ∉ w.newTrace w' := by
    intro w' done hreads hmem
    obtain ⟨q, r, i, heq, _⟩ := hreads.only _ hmem l rfl
    cases heq
  refine (ReadsHeld.refl w l).handshake.mono ?_ ?_ (fun _ h => h)
  · intro _ w' hended hclient
    obtain ⟨w₂, done, ⟨hw, hreads⟩, hread, rfl⟩ := hended
    have hclient₂ : w₂.self.client = some l := hclient
    have hreads₂ := hreads hclient₂
    rw [hclient₂]
    -- The note that the handshake is complete is all that comes after the answers.
    have hmem : ∀ {o}, o ∈ w.newTrace (w₂.log (.handshaken (some l))) ↔
        o = .handshaken (some l) ∨ o ∈ w.newTrace w₂ := World.mem_newTrace_log hw
    refine ⟨fun o ho m hm => ?_, iff_of_true ?_ (hmem.mpr (Or.inl rfl))⟩
    · rcases hmem.mp ho with rfl | hold
      · exact (Option.some.inj hm).symm
      · exact hreads₂.link hold hm
    · apply (serialRead_congr fun q r i _ => ?_).mp (hreads₂.serialRead_iff.mpr hread)
      rw [hmem]
      simp
  · intro _ w' hended hclient
    obtain ⟨done, ⟨_, hreads⟩, hnot⟩ := hended
    have hreads' := hreads hclient
    refine ⟨fun o ho m hm => hreads'.link ho hm, iff_of_false ?_ (hunknown hreads')⟩
    rwa [hreads'.serialRead_iff]

end OverLink

end Ninebot
