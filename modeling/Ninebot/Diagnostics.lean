import Mathlib.Data.Finset.Sort
import Mathlib.Data.String.Basic
import Ninebot.FakeScooter
import Ninebot.Hex
import Ninebot.Histories

/-! # Diagnostics

    The register table of `diagnostics.py` shows the raw payload of a register
    beside its decoded value, so that a scaling can be checked.  The two are
    kept in different maps, and a payload that does not decode replaces only
    one of them.

    This file defines:
    - `diagnosticsRegisters`: the table
    - `ValuesMatch`: values that are what the raw payloads beside them decode to
    - `NewestDecode`: no undecodable payload follows one that was decoded -/

namespace Ninebot

variable {κ : Type} [Cipher κ]

/-! ## The table -/

structure DiagnosticsRow where
  index : String
  board : String
  length : Nat
  scale : Rat
  raw : String
  value : Option Value

/-- One register, if it is in the register map. -/
def diagnosticsRow (state : ScooterState) (key raw : String) : Option DiagnosticsRow :=
  match registersByKey key with
  | .ok register => some
      { index := "0x" ++ format02X register.index
        board := register.board.name
        length := register.length
        scale := register.scale
        raw := raw
        value := state.values.lookup key }
  | .error _ => none

/-- `registers` in `async_get_config_entry_diagnostics`, before it is redacted. -/
def diagnosticsRegisters (state : ScooterState) : List (String × DiagnosticsRow) :=
  (state.raw.keys.sort (· ≤ ·)).filterMap fun key => do
    let row ← diagnosticsRow state key (← state.raw.lookup key)
    return (key, row)

/-- `failures` in the dump: every failure, under its key. -/
def failureRows (state : ScooterState) : List (String × String) :=
  (state.failures.keys.sort (· ≤ ·)).filterMap fun key =>
    (state.failures.lookup key).map fun text => (key, text)

/-- The value is what the register makes of the bytes whose hex is `raw`. -/
def DecodedFrom (key raw : String) (value : Value) : Prop :=
  ∃ register payload, registersByKey key = .ok register ∧
    fromHex raw.toList = .ok payload ∧ register.convert payload = .ok value

/-- A value that stands beside a raw payload is decoded from it. -/
def ValuesMatch (state : ScooterState) : Prop :=
  ∀ key raw value, state.raw.lookup key = some raw → state.values.lookup key = some value →
    DecodedFrom key raw value

/-- So is every value that the table shows. -/
def RowsMatch (rows : List (String × DiagnosticsRow)) : Prop :=
  ∀ key row value, (key, row) ∈ rows → row.value = some value → DecodedFrom key row.raw value

theorem mem_diagnosticsRegisters {state : ScooterState} {key : String} {row : DiagnosticsRow} :
    (key, row) ∈ diagnosticsRegisters state ↔
      ∃ raw, state.raw.lookup key = some raw ∧ diagnosticsRow state key raw = some row := by
  unfold diagnosticsRegisters
  rw [List.mem_filterMap]
  constructor
  · rintro ⟨other, _, h⟩
    obtain ⟨raw, hraw, row', hrow, hpair⟩ : ∃ raw, state.raw.lookup other = some raw ∧
        ∃ row', diagnosticsRow state other raw = some row' ∧ (other, row') = (key, row) := by
      simpa [Option.bind_eq_some_iff] using h
    cases hpair
    exact ⟨raw, hraw, hrow⟩
  · rintro ⟨raw, hraw, hrow⟩
    refine ⟨key, ?_, ?_⟩
    · rw [Finset.mem_sort, Finmap.mem_keys, ← Finmap.lookup_isSome, hraw]
      rfl
    · simp [hraw, hrow]

/-- The table pairs its values when the state does, and shows every value of
    the state that has a raw payload. -/
theorem rowsMatch_iff {state : ScooterState}
    (hknown : ∀ key raw, state.raw.lookup key = some raw →
      ∃ register, registersByKey key = .ok register) :
    RowsMatch (diagnosticsRegisters state) ↔ ValuesMatch state := by
  constructor
  · intro hrows key raw value hraw hvalue
    obtain ⟨register, hregister⟩ := hknown key raw hraw
    have hrow : ∃ row, diagnosticsRow state key raw = some row ∧ row.raw = raw ∧
        row.value = some value := by
      simp [diagnosticsRow, hregister, hvalue]
    obtain ⟨row, hrow, rfl, hshown⟩ := hrow
    exact hrows key row value (mem_diagnosticsRegisters.mpr ⟨row.raw, hraw, hrow⟩) hshown
  · intro hmatch key row value hmem hshown
    obtain ⟨raw, hraw, hrow⟩ := mem_diagnosticsRegisters.mp hmem
    unfold diagnosticsRow at hrow
    split at hrow
    · cases hrow
      exact hmatch key raw value hraw hshown
    · cases hrow

/-! ## The payloads of a history -/

/-- What a register makes of a payload. -/
def decodeKey (key : String) (payload : Bytes) : Option Value :=
  match registersByKey key with
  | .ok register => (register.convert payload).toOption
  | .error _ => none

/-- The payload that a poll has read of a register. -/
def PollEnd.payload? (key : String) : PollEnd → Option Bytes
  | .failed _ => none
  | .succeeded includeStatic outcomes =>
      (((pollRegisters includeStatic).zip outcomes).find? (·.1.key == key)).bind
        (·.2.toOption)

/-- The payloads that were read of a register, newest first. -/
def payloads (key : String) (endings : List PollEnd) : List Bytes :=
  endings.filterMap (·.payload? key)

/-- The newest payload of a register decodes, unless none before it did. -/
def NewestDecode (endings : List PollEnd) : Prop :=
  ∀ key payload older, payloads key endings = payload :: older →
    (decodeKey key payload).isSome = true ∨ ∀ p ∈ older, decodeKey key p = none

/-- No key is listed twice: a search by key finds the item that has it. -/
theorem find_by_key {α : Type} (key : α → String) {items : List α} (hkeys : (items.map key).Nodup)
    {item : α} (h : item ∈ items) : items.find? (fun a => key a == key item) = some item := by
  induction items with
  | nil => cases h
  | cons head items ih =>
    obtain ⟨hhead, htail⟩ := List.nodup_cons.mp hkeys
    rcases List.mem_cons.mp h with rfl | h
    · exact List.find?_cons_of_pos (beq_self_eq_true _)
    · have hne : key head ≠ key item := by
        intro heq
        exact hhead (heq ▸ List.mem_map_of_mem h)
      rw [List.find?_cons_of_neg (by simpa using hne)]
      exact ih htail h

theorem registersByKey_key {register : Register} (h : register ∈ registers) :
    registersByKey register.key = .ok register := by
  have hfind := find_by_key Register.key registers_keys_nodup h
  unfold registersByKey
  rw [hfind]

theorem registersByKey_mem {key : String} {register : Register}
    (h : registersByKey key = .ok register) : register ∈ registers ∧ register.key = key := by
  unfold registersByKey at h
  split at h
  · rename_i found hfind
    cases h
    exact ⟨List.mem_of_find?_eq_some hfind, by simpa using List.find?_some hfind⟩
  · cases h

section Lookup

variable {includeStatic : Bool} {outcomes : List Outcome} {register : Register} {outcome : Outcome}

theorem payload?_of_mem (hlen : outcomes.length = (pollRegisters includeStatic).length)
    (h : (register, outcome) ∈ (pollRegisters includeStatic).zip outcomes) :
    (PollEnd.succeeded includeStatic outcomes).payload? register.key = outcome.toOption := by
  have hkeys := keys_zip hlen
  have hfind := find_by_key (fun read : Register × Outcome => read.1.key)
    (hkeys ▸ pollRegisters_nodup includeStatic) h
  show (((pollRegisters includeStatic).zip outcomes).find? _).bind _ = _
  rw [hfind]
  rfl

theorem payload?_of_not_mem (hlen : outcomes.length = (pollRegisters includeStatic).length)
    {key : String} (h : key ∉ (pollRegisters includeStatic).map (·.key)) :
    (PollEnd.succeeded includeStatic outcomes).payload? key = none := by
  have hfind : ((pollRegisters includeStatic).zip outcomes).find? (·.1.key == key) = none := by
    rw [List.find?_eq_none]
    intro read hread heq
    apply h
    rw [← keys_zip hlen]
    exact List.mem_map.mpr ⟨read, hread, beq_iff_eq.mp heq⟩
  show (((pollRegisters includeStatic).zip outcomes).find? _).bind _ = _
  rw [hfind]
  rfl

/-- What a snapshot has under a key comes from the payload of that key alone. -/
theorem snapshot_lookup (hlen : outcomes.length = (pollRegisters includeStatic).length)
    (key : String) :
    (snapshot (pollRegisters includeStatic) outcomes).raw.lookup key =
      ((PollEnd.succeeded includeStatic outcomes).payload? key).map hexUpper ∧
    (snapshot (pollRegisters includeStatic) outcomes).values.lookup key =
      ((PollEnd.succeeded includeStatic outcomes).payload? key).bind (decodeKey key) := by
  have haccounts := snapshot_accounts (pollRegisters_nodup includeStatic) hlen
  by_cases hmem : key ∈ (pollRegisters includeStatic).map (·.key)
  · rw [← keys_zip hlen] at hmem
    obtain ⟨⟨register, outcome⟩, hread, rfl⟩ := List.mem_map.mp hmem
    have hregister : register ∈ registers := mem_registers (List.of_mem_zip hread).1
    have hdecode : decodeKey register.key = fun payload => (register.convert payload).toOption := by
      unfold decodeKey
      rw [registersByKey_key hregister]
    rw [payload?_of_mem hlen hread, hdecode]
    exact ⟨haccounts.raw register outcome hread, haccounts.values register outcome hread⟩
  · obtain ⟨hvalues, hraw, _⟩ := haccounts.noOther key hmem
    rw [payload?_of_not_mem hlen hmem, Finmap.lookup_eq_none.mpr hraw,
      Finmap.lookup_eq_none.mpr hvalues]
    exact ⟨rfl, rfl⟩

end Lookup

/-! ## Every run -/

section Runs

variable {home₀ home : Home κ} {endings : List PollEnd}

/-- The raw payload is the newest that was read; the value is the newest that
    was decoded. -/
theorem History.lookup (hstart : home₀.coordinator.state = {}) (h : History home₀ endings home)
    (key : String) :
    home.coordinator.state.raw.lookup key = (payloads key endings).head?.map hexUpper ∧
    home.coordinator.state.values.lookup key =
      (payloads key endings).findSome? (decodeKey key) := by
  induction h with
  | start =>
    rw [hstart]
    exact ⟨rfl, rfl⟩
  | between _ hb ih =>
    obtain ⟨_, heq⟩ := hb.coordinator
    rw [heq]
    exact ih
  | @poll endings _ _ ending _ _ hended ih =>
    cases hended with
    | failed e _ heq _ =>
      rw [heq]
      exact ih
    | succeeded includeStatic outcomes _ _ _ _ hlen heq _ =>
      obtain ⟨hraw, hvalues⟩ := snapshot_lookup hlen key
      rw [heq]
      show (_ ∪ _ : Dict String).lookup key = (List.filterMap _ _).head?.map _ ∧
        (_ ∪ _ : Dict Value).lookup key = (List.filterMap _ _).findSome? _
      rw [ScooterState.lookup_union_or, ScooterState.lookup_union_or, hraw, hvalues, ih.1, ih.2]
      rcases hpayload : (PollEnd.succeeded includeStatic outcomes).payload? key with _ | payload
      · rw [List.filterMap_cons_none hpayload]
        exact ⟨rfl, rfl⟩
      · rw [List.filterMap_cons_some hpayload]
        -- The value stays when the new payload does not decode; the raw payload goes.
        rcases hdecode : decodeKey key payload with _ | value
        · simp [hdecode, payloads]
        · simp [hdecode]

/-- Only registers of the map are read. -/
theorem payload?_known {key : String} {ending : PollEnd} {payload : Bytes}
    (h : ending.payload? key = some payload) : ∃ register, registersByKey key = .ok register := by
  cases ending with
  | failed e => cases h
  | succeeded includeStatic outcomes =>
    obtain ⟨⟨register, outcome⟩, hfind, _⟩ := Option.bind_eq_some_iff.mp h
    have hkey : register.key = key := by simpa using List.find?_some hfind
    have hmem := mem_registers (List.of_mem_zip (List.mem_of_find?_eq_some hfind)).1
    exact ⟨register, hkey ▸ registersByKey_key hmem⟩

theorem decodedFrom_iff {key : String} {payload : Bytes} {value : Value} :
    DecodedFrom key (hexUpper payload) value ↔ decodeKey key payload = some value := by
  unfold DecodedFrom decodeKey
  rw [fromHex_hexUpper]
  rcases registersByKey key with e | register
  · simp
  · rcases hconvert : register.convert payload with e | other
    · simp [hconvert, Except.toOption]
    · simp [hconvert, Except.toOption]

theorem History.known (hstart : home₀.coordinator.state = {}) (h : History home₀ endings home) :
    ∀ key raw, home.coordinator.state.raw.lookup key = some raw →
      ∃ register, registersByKey key = .ok register := by
  intro key raw hraw
  rw [(h.lookup hstart key).1, Option.map_eq_some_iff] at hraw
  obtain ⟨payload, hhead, _⟩ := hraw
  obtain ⟨ending, _, hpayload⟩ := List.mem_filterMap.mp (List.mem_of_mem_head? hhead)
  exact payload?_known hpayload

/-- A raw payload and a value stand beside each other when some payload decoded;
    they belong to the same read when the newest did. -/
theorem History.valuesMatch_iff (hstart : home₀.coordinator.state = {})
    (h : History home₀ endings home) :
    ValuesMatch home.coordinator.state ↔ NewestDecode endings := by
  have hlookup := h.lookup hstart
  constructor
  · intro hmatch key payload older heq
    obtain ⟨hraw, hvalues⟩ := hlookup key
    rw [heq] at hraw hvalues
    -- Otherwise the value would be an older payload's.
    by_contra hno
    rw [not_or, Bool.not_eq_true, Option.isSome_eq_false_iff, Option.isNone_iff_eq_none] at hno
    obtain ⟨hfresh, holder⟩ := hno
    rw [List.findSome?_cons, hfresh] at hvalues
    obtain ⟨value, hvalue⟩ : ∃ value, older.findSome? (decodeKey key) = some value := by
      rw [← Option.isSome_iff_exists, Option.isSome_iff_ne_none]
      intro hnone
      exact holder (List.findSome?_eq_none_iff.mp hnone)
    have hfrom := hmatch key (hexUpper payload) value hraw (hvalues.trans hvalue)
    rw [decodedFrom_iff, hfresh] at hfrom
    cases hfrom
  · intro hnewest key raw value hraw hvalue
    obtain ⟨hraw', hvalue'⟩ := hlookup key
    rcases hpayloads : payloads key endings with _ | ⟨payload, older⟩
    · rw [hraw', hpayloads] at hraw
      cases hraw
    · rw [hraw', hpayloads] at hraw
      cases hraw
      rw [hvalue', hpayloads, List.findSome?_cons] at hvalue
      rw [decodedFrom_iff]
      rcases hdecode : decodeKey key payload with _ | value'
      · -- An undecodable payload is the first of its register.
        have holder := (hnewest key payload older hpayloads).resolve_left (by simp [hdecode])
        rw [hdecode, List.findSome?_eq_none_iff.mpr holder] at hvalue
        cases hvalue
      · rw [hdecode] at hvalue
        exact hvalue

/-- In every state that a run reaches, the values stand beside the payloads they
    were decoded from exactly when the newest payload of each register decodes,
    or none did before it. -/
theorem polls_valuesMatch_iff (hstart : home₀.coordinator.state = {})
    (h : History home₀ endings home) :
    (ValuesMatch home.coordinator.state ↔ NewestDecode endings) ∧
    (RowsMatch (diagnosticsRegisters home.coordinator.state) ↔ NewestDecode endings) := by
  have hmatch := h.valuesMatch_iff hstart
  exact ⟨hmatch, (rowsMatch_iff (h.known hstart)).trans hmatch⟩

end Runs

/-! ## A payload of one byte -/

/-- Every register is answered with zeros, apart from the temperature probes. -/
def probesPoll (includeStatic : Bool) (answers : List Step) : List Step :=
  (pollRegisters includeStatic).flatMap fun register =>
    if register.key = "battery_temperatures" then answers
    else [.answer .ok, respond 0 (readReply register.board register.index
      (List.replicate register.length 0)), .answer .ok]

def bothProbes : List Step :=
  [.answer .ok, respond 0 (readReply .bms 0x96 [0x2C, 0x2C, 0x2D, 0x2D]), .answer .ok]

/-- Neither the bulk reply nor the replies to its words carry enough bytes. -/
def oneByte : List Step :=
  [.answer .ok, respond 0 (readReply .bms 0x96 [0x2B]), .answer .ok,
    .answer .ok, respond 0 (readReply .bms 0x96 [0x2B]), .answer .ok,
    .answer .ok, respond 0 (readReply .bms 0x97 []), .answer .ok]

def probesHome : Home StubCrypto where
  world := World.online (fakeClient none) (probesPoll true bothProbes ++ probesPoll false oneByte)
  entry := ⟨"Scooter", "C0:FF:EE:00:00:01", none, none⟩
  coordinator := Coordinator.make "C0:FF:EE:00:00:01" "Scooter"

def probesRead : Home StubCrypto := (coordinatorPoll (coordinatorPoll probesHome).2).2

theorem probes_polls : Polls probesHome probesRead := by
  have hrun : (coordinatorPoll probesHome).1 = .ret () ∧
      (coordinatorPoll (coordinatorPoll probesHome).2).1 = .ret () := by decide +kernel
  obtain ⟨hfirst, hsecond⟩ := hrun
  exact (Polls.start.poll (completed hfirst)).poll (completed hsecond)

/-- The table shows the byte of the second poll beside the temperatures of the first. -/
theorem probes_mismatch : ¬ ValuesMatch probesRead.coordinator.state := by
  intro h
  have hread : probesRead.coordinator.state.raw.lookup "battery_temperatures" =
        some (hexUpper [0x2B]) ∧
      probesRead.coordinator.state.values.lookup "battery_temperatures" =
        some (.floats [24, 24]) := by decide +kernel
  obtain ⟨hraw, hvalue⟩ := hread
  have hfrom := h _ _ _ hraw hvalue
  rw [decodedFrom_iff] at hfrom
  revert hfrom
  decide +kernel

theorem staleProbes : ∃ home₀ home : Home StubCrypto, home₀.coordinator.state = {} ∧
    Polls home₀ home ∧ ¬ ValuesMatch home.coordinator.state ∧
    ¬ RowsMatch (diagnosticsRegisters home.coordinator.state) := by
  obtain ⟨endings, h⟩ := probes_polls.history
  refine ⟨probesHome, probesRead, rfl, probes_polls, probes_mismatch, ?_⟩
  rw [rowsMatch_iff (h.known rfl)]
  exact probes_mismatch

theorem probes_newestDecode : ∃ endings, History probesHome endings probesRead ∧
    ¬ NewestDecode endings := by
  obtain ⟨endings, h⟩ := probes_polls.history
  refine ⟨endings, h, ?_⟩
  rw [← (polls_valuesMatch_iff rfl h).1]
  exact probes_mismatch

end Ninebot
