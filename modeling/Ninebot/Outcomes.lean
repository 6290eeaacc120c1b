import Ninebot.Polls
import Ninebot.Snapshots

/-! # Outcomes of a poll

    A poll is decided by how its reads end: each with a payload, or with an
    exception of the client's own.  What it returns is a fold over these
    outcomes, and whether it is cut short is read off the timeouts among them.

    This file defines:
    - `Supplies`: the outcomes of reads made one after the other
    - `snapshot`: what the loop of `async_poll` makes of them
    - `Silent`: three timeouts in a row
    - `Accounts`: how a snapshot stands to the outcomes -/

namespace Ninebot

open Coro

/-- How the read of one register ends, when the poll goes on after it. -/
abbrev Outcome : Type := Except Exc Bytes

/-! ## The fold -/

namespace ScooterState

/-- One register in the loop of `async_poll`. -/
def enter (self : ScooterState) (register : Register) : Outcome → ScooterState
  | .error e => self.fail register.key e.msg
  | .ok payload =>
      match register.convert payload with
      | .ok value => (self.record register.key payload).decoded register.key value
      | .error e =>
          (self.record register.key payload).fail register.key ("Could not decode: " ++ e.msg)

/-- The registers of a poll, each with its outcome. -/
def enterAll (self : ScooterState) (reads : List (Register × Outcome)) : ScooterState :=
  reads.foldl (fun state read => state.enter read.1 read.2) self

/-- What the three maps say about a key. -/
def said (self : ScooterState) (key : String) : Option Value × Option String × Option String :=
  (self.values.lookup key, self.raw.lookup key, self.failures.lookup key)

end ScooterState

/-- What a poll that is not cut short returns. -/
def snapshot (registers : List Register) (outcomes : List Outcome) : ScooterState :=
  ScooterState.enterAll {} (registers.zip outcomes)

/-- The text under which a read is recorded as a failure. -/
def Register.failure (self : Register) : Outcome → Option String
  | .error e => some e.msg
  | .ok payload =>
      match self.convert payload with
      | .ok _ => none
      | .error e => some ("Could not decode: " ++ e.msg)

/-- What a snapshot says of a register whose read ended so. -/
def Register.report (self : Register) (outcome : Outcome) :
    Option Value × Option String × Option String :=
  (outcome.toOption.bind fun payload => (self.convert payload).toOption,
    outcome.toOption.map hexUpper, self.failure outcome)

namespace ScooterState

variable {state : ScooterState} {register : Register} {payload : Bytes}

theorem enter_decoded {value : Value} (hc : register.convert payload = .ok value) :
    state.enter register (.ok payload) =
      (state.record register.key payload).decoded register.key value := by
  simp only [enter, hc]

theorem enter_undecoded {e : Exc} (hc : register.convert payload = .error e) :
    state.enter register (.ok payload) =
      (state.record register.key payload).fail register.key ("Could not decode: " ++ e.msg) := by
  simp only [enter, hc]

/-- A read writes under its own key. -/
theorem said_enter_of_ne (outcome : Outcome) {key : String} (h : key ≠ register.key) :
    (state.enter register outcome).said key = state.said key := by
  rcases outcome with e | payload
  · simp [enter, said, fail, Finmap.lookup_insert_of_ne _ h]
  · rcases hc : register.convert payload with e | value
    · rw [enter_undecoded hc]
      simp [said, fail, record, Finmap.lookup_insert_of_ne _ h]
    · rw [enter_decoded hc]
      simp [said, decoded, record, Finmap.lookup_insert_of_ne _ h]

theorem said_enter_self (outcome : Outcome) (h : state.said register.key = (none, none, none)) :
    (state.enter register outcome).said register.key = register.report outcome := by
  simp only [said, Prod.mk.injEq] at h
  obtain ⟨hvalues, hraw, hfailures⟩ := h
  rcases outcome with e | payload
  · simp [enter, said, fail, Register.report, Register.failure, Except.toOption,
      Finmap.lookup_insert, hvalues, hraw]
  · rcases hc : register.convert payload with e | value
    · rw [enter_undecoded hc]
      simp [said, fail, record, Register.report, Register.failure, Except.toOption,
        Finmap.lookup_insert, hvalues, hc]
    · rw [enter_decoded hc]
      simp [said, decoded, record, Register.report, Register.failure, Except.toOption,
        Finmap.lookup_insert, hfailures, hc]

theorem said_enterAll_of_ne (reads : List (Register × Outcome)) {key : String}
    (h : key ∉ reads.map (·.1.key)) :
    (state.enterAll reads).said key = state.said key := by
  induction reads generalizing state with
  | nil => rfl
  | cons read reads ih =>
    simp only [List.map_cons, List.mem_cons, not_or] at h
    show ((state.enter read.1 read.2).enterAll reads).said key = _
    rw [ih h.2, said_enter_of_ne _ h.1]

/-- Different keys: what is entered about a register stays. -/
theorem said_enterAll {reads : List (Register × Outcome)}
    (hkeys : (reads.map (·.1.key)).Nodup)
    (hempty : ∀ read ∈ reads, state.said read.1.key = (none, none, none))
    {outcome : Outcome} (h : (register, outcome) ∈ reads) :
    (state.enterAll reads).said register.key = register.report outcome := by
  induction reads generalizing state with
  | nil => cases h
  | cons read reads ih =>
    obtain ⟨hhead, htail⟩ := List.nodup_cons.mp hkeys
    show ((state.enter read.1 read.2).enterAll reads).said register.key = _
    rcases List.mem_cons.mp h with rfl | h
    · rw [said_enterAll_of_ne _ hhead]
      exact said_enter_self outcome (hempty _ List.mem_cons_self)
    · apply ih htail _ h
      intro other hother
      have hne : other.1.key ≠ read.1.key := by
        intro heq
        exact hhead (List.mem_map.mpr ⟨other, hother, heq⟩)
      rw [said_enter_of_ne _ hne]
      exact hempty _ (List.mem_cons_of_mem _ hother)

end ScooterState

/-! ## The reads -/

section Reads

variable {κ : Type} [Cipher κ]

/-- The read of one register, with the exceptions that a poll survives. -/
def tryRead (register : Register) : M κ Outcome :=
  Coro.attempt (·.isInstance [.ninebotError]) (readRegister register)

/-- The first reads of a poll that starts in `w` have these outcomes. -/
inductive Supplies : List Register → World κ → List Outcome → World κ → Prop where
  | nil {registers : List Register} {w : World κ} : Supplies registers w [] w
  | cons {register : Register} {rest : List Register} {w w' : World κ} {outcome : Outcome}
      {outcomes : List Outcome} : (tryRead register w).1 = .ret outcome →
      Supplies rest (tryRead register w).2 outcomes w' →
      Supplies (register :: rest) w (outcome :: outcomes) w'

/-- Its decoder raises nothing but what `async_poll` catches. -/
def Register.Decodes (self : Register) : Prop :=
  ∀ payload e, self.convert payload = .error e → e.isInstance [.valueError, .indexError] = true

end Reads

/-- Is this a timeout? -/
def Outcome.timedOut : Outcome → Bool
  | .ok _ => false
  | .error e => e.isInstance [.ninebotTimeoutError]

/-- `consecutive_timeouts` after one more read. -/
def Outcome.count (n : Nat) : Outcome → Nat
  | .ok _ => 0
  | .error e => if e.isInstance [.ninebotTimeoutError] then n + 1 else n

section Loop

variable {κ : Type} [Cipher κ] {register : Register} {rest registers : List Register}
  {w w' : World κ} {state : ScooterState} {outcome : Outcome} {outcomes : List Outcome}

/-- One turn of the loop. -/
theorem pollLoop_turn {n : Nat} (hn : n < maxConsecutiveTimeouts) (hdecodes : register.Decodes)
    (h : (tryRead register w).1 = .ret outcome) :
    pollLoop (register :: rest) state n w =
      if maxConsecutiveTimeouts ≤ outcome.count n then
        (.raised ⟨.ninebotConnectionError, "Scooter stopped responding after " ++ register.key⟩,
          (tryRead register w).2)
      else pollLoop rest (state.enter register outcome) (outcome.count n)
        (tryRead register w).2 := by
  have hread : Coro.attempt (·.isInstance [.ninebotError]) (readRegister register) w =
      (.ret outcome, (tryRead register w).2) := run_eq h
  rw [pollLoop, bind_of_ret hread]
  rcases outcome with e | payload
  · by_cases htime : e.isInstance [.ninebotTimeoutError]
    · by_cases hmany : maxConsecutiveTimeouts ≤ n + 1
      · simp [Outcome.count, htime, hmany]
      · simp [Outcome.count, htime, hmany, ScooterState.enter]
    · simp [Outcome.count, htime, Nat.not_le.mpr hn, ScooterState.enter]
  · have hpos : ¬ maxConsecutiveTimeouts ≤ 0 := by decide
    rcases hc : register.convert payload with e | value
    · simp [Outcome.count, hc, hdecodes payload e hc, hpos, ScooterState.enter]
    · simp [Outcome.count, hc, hpos, ScooterState.enter]

omit [Cipher κ] in
/-- A payload ends a stretch of timeouts that is not long enough. -/
theorem stretch_false {n : Nat} (hn : n < maxConsecutiveTimeouts) (flags : List Bool) :
    List.replicate maxConsecutiveTimeouts true <:+: List.replicate n true ++ false :: flags ↔
      List.replicate maxConsecutiveTimeouts true <:+: flags := by
  unfold maxConsecutiveTimeouts at *
  obtain rfl | rfl | rfl : n = 0 ∨ n = 1 ∨ n = 2 := by omega
  all_goals simp [List.replicate, List.infix_cons_iff, List.cons_prefix_cons]

omit [Cipher κ] in
theorem stretch_true (n : Nat) (flags : List Bool) :
    List.replicate n true ++ true :: flags = List.replicate (n + 1) true ++ flags := by
  rw [List.replicate_succ', List.append_assoc]
  rfl

/-- Three reads in a row, within these after `n` others, that time out. -/
def SilentAfter (n : Nat) (outcomes : List Outcome) : Prop :=
  List.replicate maxConsecutiveTimeouts true <:+:
    List.replicate n true ++ outcomes.map Outcome.timedOut

omit [Cipher κ] in
/-- The counter of the loop sees the stretch when it is complete. -/
theorem silentAfter_cons {n : Nat} (hn : n < maxConsecutiveTimeouts)
    (hkind : ∀ e, outcome = .error e → e.isInstance [.ninebotTimeoutError] = true) :
    SilentAfter n (outcome :: outcomes) ↔
      maxConsecutiveTimeouts ≤ outcome.count n ∨ SilentAfter (outcome.count n) outcomes := by
  unfold SilentAfter
  rcases outcome with e | payload
  · have htime := hkind e rfl
    simp only [List.map_cons, Outcome.timedOut, Outcome.count, htime, if_true, stretch_true]
    constructor
    · exact Or.inr
    · rintro (hmany | hlater)
      · have hlast : n + 1 = maxConsecutiveTimeouts := by omega
        rw [hlast]
        exact (List.prefix_append _ _).isInfix
      · exact hlater
  · simp only [List.map_cons, Outcome.timedOut, Outcome.count, stretch_false hn]
    constructor
    · exact Or.inr
    · rintro (hmany | hlater)
      · exact absurd hmany (by decide)
      · exact hlater

/-- The loop over registers whose reads end with payloads and timeouts. -/
theorem pollLoop_supplied (h : Supplies registers w outcomes w')
    (hdecodes : ∀ r ∈ registers, r.Decodes)
    (hkind : ∀ e, Except.error e ∈ outcomes → e.isInstance [.ninebotTimeoutError] = true)
    {n : Nat} (hn : n < maxConsecutiveTimeouts) (state : ScooterState) :
    (SilentAfter n outcomes → ∃ e, (pollLoop registers state n w).1 = .raised e ∧
      e.cls = .ninebotConnectionError) ∧
    (¬ SilentAfter n outcomes → ∃ m, pollLoop registers state n w =
      pollLoop (registers.drop outcomes.length) (state.enterAll (registers.zip outcomes)) m
        w') := by
  induction h generalizing n state with
  | nil =>
    refine ⟨fun hsilent => ?_, fun _ => ⟨n, by simp [ScooterState.enterAll]⟩⟩
    have hlen := hsilent.length_le
    simp at hlen
    omega
  | @cons register rest w w' outcome outcomes hread hrest ih =>
    have hhead : ∀ e, outcome = .error e → e.isInstance [.ninebotTimeoutError] = true := by
      rintro e rfl
      exact hkind e List.mem_cons_self
    rw [pollLoop_turn hn (hdecodes register List.mem_cons_self) hread, silentAfter_cons hn hhead]
    -- Either this is the third timeout in a row, or the rest decides.
    by_cases hmany : maxConsecutiveTimeouts ≤ outcome.count n
    · rw [if_pos hmany]
      exact ⟨fun _ => ⟨_, rfl, rfl⟩, fun hno => absurd (Or.inl hmany) hno⟩
    · rw [if_neg hmany]
      have ih := ih (fun r hr => hdecodes r (List.mem_cons_of_mem _ hr))
        (fun e he => hkind e (List.mem_cons_of_mem _ he)) (Nat.lt_of_not_le hmany)
        (state.enter register outcome)
      constructor
      · rintro (hsilent | hsilent)
        · exact absurd hsilent hmany
        · exact ih.1 hsilent
      · intro hno
        exact ih.2 fun hsilent => hno (Or.inr hsilent)

/-- What a loop that returns has read. -/
theorem pollLoop_supplies (registers : List Register) (state : ScooterState) (n : Nat)
    (w : World κ) :
    Triple (pollLoop registers state n) w
      (fun state' w' => ∃ outcomes, Supplies registers w outcomes w' ∧
        outcomes.length = registers.length ∧ state' = state.enterAll (registers.zip outcomes))
      (fun _ _ => True) (fun _ => True) := by
  induction registers generalizing state n w with
  | nil => exact Triple.pure ⟨[], .nil, rfl, rfl⟩
  | cons register rest ih =>
    -- One turn is one outcome, whatever becomes of the counter of timeouts.
    have hturn : ∀ outcome w₁ m, tryRead register w = (.ret outcome, w₁) →
        Triple (pollLoop rest (state.enter register outcome) m) w₁
          (fun state' w' => ∃ outcomes, Supplies (register :: rest) w outcomes w' ∧
            outcomes.length = (register :: rest).length ∧
            state' = state.enterAll ((register :: rest).zip outcomes))
          (fun _ _ => True) (fun _ => True) := by
      intro outcome w₁ m hread
      apply (ih _ m w₁).mono_ret
      rintro _ w' ⟨outcomes, hsupplies, hlen, rfl⟩
      refine ⟨outcome :: outcomes, .cons ?_ ?_, by simp [hlen], rfl⟩
      · rw [hread]
      · rw [hread]
        exact hsupplies
    have hread : Triple (readRegister register) w
        (fun payload w₁ => tryRead register w = (.ret (.ok payload), w₁))
        (fun e w₁ => if e.isInstance [.ninebotError]
          then tryRead register w = (.ret (.error e), w₁) else True) (fun _ => True) := by
      have h := Triple.of_attempt (fun e : Exc => e.isInstance [.ninebotError])
        (readRegister register) w
      apply h.mono (fun _ _ h => h) ?_ (fun _ _ => trivial)
      intro e w₁ h
      split
      · next he => rwa [if_pos he] at h
      · trivial
    apply pollLoop_cons hread
    · exact fun e w₁ m h => hturn _ w₁ m h
    · exact fun _ _ _ _ => trivial
    · intro payload value w₁ h hc
      have := hturn _ w₁ 0 h
      rwa [ScooterState.enter_decoded hc] at this
    · intro payload e w₁ h hc
      have := hturn _ w₁ 0 h
      rwa [ScooterState.enter_undecoded hc] at this
    · exact fun _ _ _ _ _ _ => trivial

/-- What a poll that returns has read. -/
theorem asyncPoll_supplies (includeStatic : Bool) (w : World κ) :
    Triple (asyncPoll includeStatic) w
      (fun state w' => ∃ outcomes, Supplies (pollRegisters includeStatic) w outcomes w' ∧
        outcomes.length = (pollRegisters includeStatic).length ∧
        state = snapshot (pollRegisters includeStatic) outcomes)
      (fun _ _ => True) (fun _ => True) := by
  apply Triple.get_bind
  by_cases hup : w.isConnected
  · simp only [hup, if_true]
    exact pollLoop_supplies _ {} 0 w
  · simp only [hup]
    exact Triple.raise trivial

end Loop

/-! ## Decoders -/

/-- The decoders of `registers.py`. -/
inductive Decoder : (Bytes → Except Exc Value) → Prop where
  | u16 : Decoder fun data => .ok (.int (Ninebot.u16 data))
  | s16 : Decoder decodeS16
  | u32 : Decoder decodeU32
  | string : Decoder decodeString
  | hex : Decoder decodeHex
  | version : Decoder decodeVersion
  | temperaturePair : Decoder temperaturePair
  | cellVoltages : Decoder decodeCellVoltages
  | bit (position : Nat) : Decoder (decodeBit position)

/-- Only the pair of temperatures looks at bytes that may be missing. -/
theorem Decoder.error {decode : Bytes → Except Exc Value} (h : Decoder decode) {payload : Bytes}
    {e : Exc} (he : decode payload = .error e) : e.cls = .indexError := by
  cases h with
  | temperaturePair =>
    have hbyte : ∀ i e', Packet.byteAt payload i = .error e' → e'.cls = .indexError := by
      intro i e' h
      unfold Packet.byteAt at h
      split at h <;> cases h
      rfl
    unfold Ninebot.temperaturePair at he
    rcases h0 : Packet.byteAt payload 0 with e' | first
    · rw [h0] at he
      cases he
      exact hbyte 0 _ h0
    · rcases h1 : Packet.byteAt payload 1 with e' | second
      · rw [h0, h1] at he
        cases he
        exact hbyte 1 _ h1
      · rw [h0, h1] at he
        cases he
  | _ => cases he

/-- Scaling raises nothing. -/
theorem Register.convert_error {register : Register} {payload : Bytes} {e : Exc}
    (h : register.convert payload = .error e) : register.decode payload = .error e := by
  unfold convert at h
  rcases hd : register.decode payload with e' | value
  · rw [hd] at h
    cases h
    rfl
  · rw [hd] at h
    simp only [Bind.bind, Except.bind] at h
    split at h
    · split at h <;> cases h
    · cases h

theorem Decoder.decodes {register : Register} (h : Decoder register.decode) :
    register.Decodes := by
  intro payload e he
  have hcls := h.error (Register.convert_error he)
  obtain ⟨cls, msg⟩ := e
  cases hcls
  rfl

theorem registers_decoder : ∀ register ∈ registers, Decoder register.decode := by
  simp only [registers, mcuRegisters, bmsRegisters, bleRegisters, serialNumber,
    List.forall_mem_append,
    List.forall_mem_cons, List.not_mem_nil]
  repeat' constructor
  all_goals simp

/-! ## What a poll returns -/

/-- Three reads in a row time out. -/
def Silent (outcomes : List Outcome) : Prop :=
  List.replicate maxConsecutiveTimeouts true <:+: outcomes.map Outcome.timedOut

instance (outcomes : List Outcome) : Decidable (Silent outcomes) :=
  inferInstanceAs (Decidable (_ <:+: _))

/-- A snapshot accounts for every register: with a value or a failure, with
    the payload that was read, and for nothing else. -/
structure Accounts (registers : List Register) (outcomes : List Outcome) (state : ScooterState) :
    Prop where
  exactlyOne : ∀ register ∈ registers,
    register.key ∈ state.values ↔ register.key ∉ state.failures
  noOther : ∀ key, key ∉ registers.map (·.key) →
    key ∉ state.values ∧ key ∉ state.raw ∧ key ∉ state.failures
  raw : ∀ register outcome, (register, outcome) ∈ registers.zip outcomes →
    state.raw.lookup register.key = outcome.toOption.map hexUpper
  values : ∀ register outcome, (register, outcome) ∈ registers.zip outcomes →
    state.values.lookup register.key =
      outcome.toOption.bind fun payload => (register.convert payload).toOption

/-- A read is entered with a value or as a failure, never as both. -/
theorem Register.report_exactlyOne (register : Register) (outcome : Outcome) :
    (register.report outcome).1.isSome = true ↔ ¬ (register.report outcome).2.2.isSome = true := by
  rcases outcome with e | payload
  · simp [Register.report, Register.failure, Except.toOption]
  · rcases hc : register.convert payload with e | value
    · simp [Register.report, Register.failure, Except.toOption, hc]
    · simp [Register.report, Register.failure, Except.toOption, hc]

theorem mem_registers {includeStatic : Bool} {register : Register}
    (h : register ∈ pollRegisters includeStatic) : register ∈ registers := by
  cases includeStatic with
  | false => exact (List.mem_filter.mp h).1
  | true =>
    rcases List.mem_append.mp h with h | h
    · exact (List.mem_filter.mp h).1
    · exact (List.mem_filter.mp h).1

/-- The keys of the reads are those of the registers. -/
theorem keys_zip {registers : List Register} {outcomes : List Outcome}
    (hlen : outcomes.length = registers.length) :
    (registers.zip outcomes).map (·.1.key) = registers.map (·.key) := by
  have hfst := List.map_fst_zip (Nat.le_of_eq hlen.symm)
  conv_rhs => rw [← hfst, List.map_map]
  rfl

theorem snapshot_accounts {registers : List Register} {outcomes : List Outcome}
    (hkeys : (registers.map (·.key)).Nodup) (hlen : outcomes.length = registers.length) :
    Accounts registers outcomes (snapshot registers outcomes) := by
  have hfst : (registers.zip outcomes).map Prod.fst = registers :=
    List.map_fst_zip (Nat.le_of_eq hlen.symm)
  have hzip := keys_zip hlen
  -- The keys are distinct, so no later register speaks about an earlier one.
  have hsaid : ∀ register outcome, (register, outcome) ∈ registers.zip outcomes →
      (snapshot registers outcomes).said register.key = register.report outcome := by
    intro register outcome h
    apply ScooterState.said_enterAll _ _ h
    · rwa [hzip]
    · exact fun _ _ => rfl
  refine ⟨?_, ?_, ?_, ?_⟩
  · intro register hmem
    obtain ⟨⟨register, outcome⟩, h, rfl⟩ : ∃ read ∈ registers.zip outcomes, read.1 = register := by
      rw [← hfst] at hmem
      exact List.mem_map.mp hmem
    have hone := register.report_exactlyOne outcome
    rw [← hsaid register outcome h] at hone
    simpa only [ScooterState.said, Finmap.lookup_isSome] using hone
  · intro key hkey
    have hnone : (snapshot registers outcomes).said key = (none, none, none) := by
      apply ScooterState.said_enterAll_of_ne
      rwa [hzip]
    simp only [ScooterState.said, Prod.mk.injEq, Finmap.lookup_eq_none] at hnone
    exact hnone
  · intro register outcome h
    exact congrArg (·.2.1) (hsaid register outcome h)
  · intro register outcome h
    exact congrArg (·.1) (hsaid register outcome h)

section Claim

variable {κ : Type} [Cipher κ]

/-- `async_poll`, for any registers in the place of the tables. -/
def asyncPollOf (registers : List Register) : M κ ScooterState := do
  if (← Coro.get).isConnected then pollLoop registers {} 0
  else Coro.raise ⟨.ninebotConnectionError, "Not connected"⟩

/-- A poll is aborted exactly when three registers in a row time out;
    otherwise it returns a snapshot that accounts for every register, whatever
    the payloads are. -/
theorem asyncPoll_accounts {registers : List Register}
    (hkeys : (registers.map (·.key)).Nodup) (hdecoders : ∀ r ∈ registers, Decoder r.decode)
    {w w' : World κ} (hup : w.isConnected = true) {outcomes : List Outcome}
    (hsupplies : Supplies registers w outcomes w')
    (hkind : ∀ e, Except.error e ∈ outcomes → e.isInstance [.ninebotTimeoutError] = true)
    (hall : outcomes.length = registers.length ∨ Silent outcomes) :
    ((∃ e, (asyncPollOf registers w).1 = .raised e ∧ e.cls = .ninebotConnectionError) ↔
      Silent outcomes) ∧
    (¬ Silent outcomes →
      asyncPollOf registers w = (.ret (snapshot registers outcomes), w') ∧
      Accounts registers outcomes (snapshot registers outcomes)) ∧
    ∀ includeStatic, asyncPoll includeStatic w = asyncPollOf (pollRegisters includeStatic) w ∧
      ((pollRegisters includeStatic).map (·.key)).Nodup ∧
      ∀ r ∈ pollRegisters includeStatic, Decoder r.decode := by
  have hloop : asyncPollOf registers w = pollLoop registers {} 0 w := by
    rw [asyncPollOf, get_bind]
    simp only [hup, if_true]
  have hdecodes : ∀ r ∈ registers, r.Decodes := fun r hr => (hdecoders r hr).decodes
  have h := pollLoop_supplied hsupplies hdecodes hkind
    (show 0 < maxConsecutiveTimeouts from by decide) {}
  have hret : ¬ Silent outcomes →
      asyncPollOf registers w = (.ret (snapshot registers outcomes), w') := by
    intro hno
    have hlen := hall.resolve_right hno
    obtain ⟨m, hm⟩ := h.2 hno
    rw [hloop, hm, hlen, List.drop_length]
    rfl
  -- A poll that is not silent returns, so only a silent one raises.
  refine ⟨⟨?_, ?_⟩, ?_, ?_⟩
  · rintro ⟨e, he, _⟩
    by_contra hno
    rw [hret hno] at he
    cases he
  · intro hsilent
    rw [hloop]
    exact h.1 hsilent
  · intro hno
    exact ⟨hret hno, snapshot_accounts hkeys (hall.resolve_right hno)⟩
  · intro includeStatic
    refine ⟨rfl, pollRegisters_nodup includeStatic, ?_⟩
    intro r hr
    exact registers_decoder r (mem_registers hr)

/-- A register that sends no byte, then one that does not answer. -/
def emptyThenSilent : List Step :=
  let empty := [.answer .ok, respond 0 (readReply .mcu 0x1B []), .answer .ok]
  empty ++ empty ++ [.answer .ok, .event (.tick 5000), .answer (.fail timerFault)]

def warningCode : Register := { key := "warning_code", board := .mcu, index := 0x1C, length := 2 }

/-- The first is recorded as zero, the second as a failure. -/
theorem emptyThenSilent_accounts :
    ∃ w', asyncPollOf [errorCode, warningCode]
        (World.online (fakeClient none) emptyThenSilent) =
        (.ret (snapshot [errorCode, warningCode]
          [.ok [], .error ⟨.ninebotTimeoutError, "Timed out waiting for a response"⟩]), w') ∧
      Accounts [errorCode, warningCode]
        [.ok [], .error ⟨.ninebotTimeoutError, "Timed out waiting for a response"⟩]
        (snapshot [errorCode, warningCode]
          [.ok [], .error ⟨.ninebotTimeoutError, "Timed out waiting for a response"⟩]) := by
  have hsupplies : Supplies [errorCode, warningCode]
      (World.online (fakeClient none) emptyThenSilent)
      [.ok [], .error ⟨.ninebotTimeoutError, "Timed out waiting for a response"⟩] _ :=
    .cons (by decide +kernel) (.cons (by decide +kernel) .nil)
  have h := asyncPoll_accounts (by decide) (by simp [errorCode, warningCode, Decoder.u16]) rfl
    hsupplies (by simp; decide) (Or.inl rfl)
  exact ⟨_, h.2.1 (by decide)⟩

end Claim

end Ninebot
