import Mathlib.Tactic.Linarith
import Mathlib.Tactic.NormNum
import Mathlib.Tactic.Positivity
import Ninebot.Cells
import Ninebot.Diagnostics
import Ninebot.Mirror

/-! # What the sensors show

    The getters of `sensor.py` and `binary_sensor.py` read a state that many
    polls have merged.  Whatever a scooter has sent, that state holds only what
    the decoders return, so that a getter never meets a value of another kind.

    This file defines:
    - `nativeValue`, `isOn` and `available` of an entity
    - `ScooterState.Decoded`: every value is what its register made of a payload
    - `Gauge`: the decoders of a number, with their bounds

    Numbers are rational here.  That nothing is rounded away says nothing about
    the last bit of a Python `float`. -/

namespace Ninebot

/-! ## Entities -/

/-- `native_value` -/
def SensorDescription.nativeValue (self : SensorDescription) (state : ScooterState) :
    Option Value :=
  self.valueFn state

/-- `is_on` -/
def BinarySensorDescription.isOn (self : BinarySensorDescription) (state : ScooterState) :
    Option Bool :=
  self.valueFn state

/-- `available` of a sensor.  The base class says whether the scooter advertises. -/
def SensorDescription.available (self : SensorDescription) (advertises : Bool)
    (state : ScooterState) : Bool :=
  advertises && (self.nativeValue state).isSome

/-- `available` of a binary sensor. -/
def BinarySensorDescription.available (self : BinarySensorDescription) (advertises : Bool)
    (state : ScooterState) : Bool :=
  advertises && (self.isOn state).isSome

/-! ## Bytes -/

theorem fromBytes_lt (data : Bytes) : fromBytes data < 256 ^ data.length := by
  induction data with
  | nil => decide
  | cons b data ih =>
    have hb := b.toNat_lt
    show b.toNat + 256 * fromBytes data < 256 ^ (data.length + 1)
    rw [Nat.pow_succ]
    omega

theorem fromBytes_take_lt (data : Bytes) (n : Nat) : fromBytes (data.take n) < 256 ^ n := by
  have hlt := fromBytes_lt (data.take n)
  have hle : 256 ^ (data.take n).length ≤ 256 ^ n :=
    Nat.pow_le_pow_right (by decide) (List.length_take_le n data)
  omega

theorem u16_lt (data : Bytes) : u16 data < 65536 := fromBytes_take_lt data 2

theorem u32_lt (data : Bytes) : u32 data < 4294967296 := by
  have hlow := u16_lt (data.take 2)
  have hhigh := u16_lt ((data.drop 2).take 2)
  show _ ||| _ < 2 ^ 32
  apply Nat.or_lt_two_pow
  · omega
  · rw [Nat.shiftLeft_eq]
    omega

theorem s16_bounds (data : Bytes) : -32768 ≤ s16 data ∧ s16 data ≤ 32767 := by
  have hlt := fromBytes_lt (data.take 2)
  have hlength : (data.take 2).length = 0 ∨ (data.take 2).length = 1 ∨
      (data.take 2).length = 2 := by
    have hle := List.length_take_le 2 data
    omega
  unfold s16 fromBytesSigned
  rcases hlength with h | h | h
  · rw [h] at hlt ⊢
    split <;> omega
  · rw [h] at hlt ⊢
    split <;> omega
  · rw [h] at hlt ⊢
    split <;> omega

/-! ## Rounding -/

/-- A number with no more decimals than that is left alone. -/
theorem round_exact {x : Rat} {digits : Nat} (n : Int) (h : x * (10 ^ digits : Nat) = n) :
    round x digits = x := by
  have hfloor : (x * (10 ^ digits : Nat)).floor = n := by
    rw [h]
    exact Rat.floor_intCast n
  have hrest : x * (10 ^ digits : Nat) - (n : Rat) < 1 / 2 := by
    rw [h]
    norm_num
  have hscale : ((10 ^ digits : Nat) : Rat) ≠ 0 := by
    have hpow : 10 ^ digits ≠ 0 := by positivity
    exact_mod_cast hpow
  unfold round
  dsimp only
  rw [hfloor, if_pos hrest, ← h]
  exact mul_div_cancel_right₀ x hscale

/-! ## Numbers -/

/-- A number within bounds, and no `bool`. -/
def Value.Measured (low high : Rat) : Value → Prop
  | .int n => low ≤ n ∧ (n : Rat) ≤ high
  | .float x => low ≤ x ∧ x ≤ high
  | _ => False

theorem Value.Measured.isPlain {low high : Rat} {value : Value} (h : value.Measured low high) :
    value.isPlain = true := by
  cases value with
  | floats _ => exact h.elim
  | _ => rfl

/-- The decoders of a number, with what fits into their bytes. -/
inductive Gauge : (Bytes → Except Exc Value) → Int → Int → Prop where
  | u16 : Gauge (fun data => .ok (.int (Ninebot.u16 data))) 0 65535
  | s16 : Gauge decodeS16 (-32768) 32767
  | u32 : Gauge decodeU32 0 4294967295

theorem Gauge.decodes {decode : Bytes → Except Exc Value} {low high : Int}
    (h : Gauge decode low high) (payload : Bytes) :
    ∃ n : Int, decode payload = .ok (.int n) ∧ low ≤ n ∧ n ≤ high := by
  cases h with
  | u16 =>
    have hlt := Ninebot.u16_lt payload
    exact ⟨_, rfl, by omega, by omega⟩
  | s16 => exact ⟨_, rfl, s16_bounds payload⟩
  | u32 =>
    have hlt := Ninebot.u32_lt payload
    exact ⟨_, rfl, by omega, by omega⟩

/-- Every scale has at most four decimals. -/
theorem registers_scale : ∀ register ∈ registers, 0 < register.scale ∧
    ∃ k : Int, register.scale * 10000 = k := by
  have hall : ∀ register ∈ registers, 0 < register.scale ∧
      register.scale * 10000 = ((register.scale * 10000).floor : Int) := by decide +kernel
  exact fun register hmem => ⟨(hall register hmem).1, _, (hall register hmem).2⟩

/-- A register of a number decodes every payload, and scales it without rounding. -/
theorem Gauge.converts {register : Register} {low high : Int}
    (h : Gauge register.decode low high) (hmem : register ∈ registers) (payload : Bytes) :
    ∃ value, register.convert payload = .ok value ∧
      value.Measured (low * register.scale) (high * register.scale) := by
  obtain ⟨hpositive, k, hk⟩ := registers_scale register hmem
  obtain ⟨n, hdecode, hlow, hhigh⟩ := h.decodes payload
  have hlow' : (low : Rat) ≤ n := by exact_mod_cast hlow
  have hhigh' : (n : Rat) ≤ high := by exact_mod_cast hhigh
  unfold Register.convert
  rw [hdecode]
  by_cases hscale : register.scale = 1
  · refine ⟨.int n, ?_, ?_⟩
    · simp [hscale, Bind.bind, Except.bind, pure, Except.pure]
    · rw [hscale, mul_one, mul_one]
      exact ⟨hlow', hhigh'⟩
  · refine ⟨.float (n * register.scale), ?_, ?_, ?_⟩
    · -- The product has four decimals at most, and is a multiple of what `round` keeps.
      have hexact : round ((n : Rat) * register.scale) 4 = n * register.scale := by
        apply round_exact (n * k)
        push_cast
        rw [← hk]
        ring
      simp [hscale, Bind.bind, Except.bind, pure, Except.pure, Value.number, hexact]
    · exact mul_le_mul_of_nonneg_right hlow' hpositive.le
    · exact mul_le_mul_of_nonneg_right hhigh' hpositive.le

/-! ## Which register a sensor reads -/

/-- What a sensor can show, in its unit. -/
def sensorBounds : String → Rat × Rat
  | "remaining_range" | "trip_distance" | "battery_voltage" => (0, 65535 / 100)
  | "battery_current" => (-32768 / 100, 32767 / 100)
  | "speed" => (0, 65535 / 1000)
  | "total_distance" => (0, 4294967295 / 1000)
  | "body_temperature" => (0, 65535 / 10)
  | "battery_temperature_1" | "battery_temperature_2" => (-20, 235)
  | "cell_voltage_min" | "cell_voltage_max" => (1 / 1000, 65535 / 1000)
  | "cell_voltage_delta" => (0, 65534 / 1000)
  | _ => (0, 65535)

/-- A sensor shows the number that a register decodes to. -/
structure SensorDescription.Reads (sensor : SensorDescription) (register : Register) : Prop where
  plain : sensor = .plain register.key
  found : registersByKey register.key = .ok register
  gauge : ∃ low high, Gauge register.decode low high ∧
    sensorBounds sensor.key = (low * register.scale, high * register.scale)

/-- The three kinds of sensors. -/
inductive SensorDescription.Kind (sensor : SensorDescription) : Prop where
  | reads {register : Register} : sensor.Reads register → Kind sensor
  | probe {index : Nat} : index < 2 → sensor.valueFn = temperature index →
      sensorBounds sensor.key = (-20, 235) → Kind sensor
  | cells {stat : CellStat} : sensor.valueFn = cellStat stat →
      sensorBounds sensor.key =
        (if stat = .delta then (0, 65534 / 1000) else (1 / 1000, 65535 / 1000)) → Kind sensor

theorem sensors_kind : ∀ sensor ∈ sensors, sensor.Kind := by
  have hplain : ∀ {key : String} {register : Register} {low high : Int},
      registersByKey key = .ok register → Gauge register.decode low high →
      sensorBounds key = (low * register.scale, high * register.scale) →
      (SensorDescription.plain key).Kind := by
    intro key register low high hfound hgauge hbounds
    obtain ⟨_, rfl⟩ := registersByKey_mem hfound
    exact .reads ⟨rfl, hfound, low, high, hgauge, hbounds⟩
  simp only [sensors, List.forall_mem_cons, List.not_mem_nil, false_imp_iff, implies_true]
  refine ⟨?_, ?_, ?_, ?_, ?_, ?_, ?_, ?_, ?_, ?_, ?_, ?_, ?_, ?_, ?_, ?_, ?_, ?_, ?_, ?_, ?_, ?_,
    ?_, ?_, ?_, trivial⟩
  all_goals first
    | exact .probe (by decide) rfl rfl
    | exact .cells rfl rfl
    | exact hplain rfl .u16 (by decide +kernel)
    | exact hplain rfl .s16 (by decide +kernel)
    | exact hplain rfl .u32 (by decide +kernel)

/-! ## Decoded states -/

/-- Every value is what its register made of some payload. -/
def ScooterState.Decoded (state : ScooterState) : Prop :=
  ∀ key value, state.get key = some value → ∃ payload, decodeKey key payload = some value

theorem decodeKey_eq {register : Register} (h : registersByKey register.key = .ok register)
    (payload : Bytes) : decodeKey register.key payload = (register.convert payload).toOption := by
  unfold decodeKey
  rw [h]

theorem decodeKey_cellVoltages (payload : Bytes) :
    decodeKey "cell_voltages" payload = some (.floats (cellVoltages payload)) := rfl

theorem decodeKey_temperatures (payload : Bytes) :
    decodeKey "battery_temperatures" payload = (temperaturePair payload).toOption := by
  have hfound : registersByKey "battery_temperatures" = .ok
      { key := "battery_temperatures", board := .bms, index := 0x96, length := 4,
        decode := temperaturePair } := rfl
  unfold decodeKey Register.convert
  rw [hfound]
  dsimp only
  rcases temperaturePair payload with e | value
  · rfl
  · rfl

/-- Two probes are read, or none. -/
theorem temperaturePair_ok {payload : Bytes} {value : Value}
    (h : temperaturePair payload = .ok value) : ∃ first second : UInt8,
      value = .floats [(first.toNat : Int) - 20, (second.toNat : Int) - 20] := by
  unfold temperaturePair at h
  rcases hfirst : Packet.byteAt payload 0 with e | first
  · rw [hfirst] at h
    cases h
  · rcases hsecond : Packet.byteAt payload 1 with e | second
    · rw [hfirst, hsecond] at h
      cases h
    · rw [hfirst, hsecond] at h
      cases h
      exact ⟨first, second, rfl⟩

namespace ScooterState.Decoded

variable {state : ScooterState}

theorem reads (h : state.Decoded) {sensor : SensorDescription} {register : Register}
    (hreads : sensor.Reads register) :
    sensor.nativeValue state = state.get register.key ∧
    ∀ value, state.get register.key = some value →
      value.Measured (sensorBounds sensor.key).1 (sensorBounds sensor.key).2 := by
  obtain ⟨low, high, hgauge, hbounds⟩ := hreads.gauge
  have hmeasured : ∀ value, state.get register.key = some value →
      value.Measured (sensorBounds sensor.key).1 (sensorBounds sensor.key).2 := by
    intro value hvalue
    obtain ⟨payload, hdecode⟩ := h _ _ hvalue
    obtain ⟨_, hconvert, hwithin⟩ := hgauge.converts (registersByKey_mem hreads.found).1 payload
    rw [decodeKey_eq hreads.found, hconvert] at hdecode
    obtain rfl := Option.some.inj hdecode
    rw [hbounds]
    exact hwithin
  refine ⟨?_, hmeasured⟩
  rw [hreads.plain]
  show (state.get register.key).filter Value.isPlain = _
  rcases hvalue : state.get register.key with _ | value
  · rfl
  · rw [Option.filter_some, if_pos (hmeasured value hvalue).isPlain]

theorem temperatures (h : state.Decoded) {value : Value}
    (hvalue : state.get "battery_temperatures" = some value) : ∃ first second : UInt8,
      tupleOf "battery_temperatures" state =
        [((first.toNat : Int) : Rat) - 20, ((second.toNat : Int) : Rat) - 20] := by
  obtain ⟨payload, hdecode⟩ := h _ _ hvalue
  rw [decodeKey_temperatures] at hdecode
  rcases hpair : temperaturePair payload with e | pair
  · rw [hpair] at hdecode
    cases hdecode
  · obtain ⟨first, second, rfl⟩ := temperaturePair_ok hpair
    rw [hpair] at hdecode
    obtain rfl := Option.some.inj hdecode
    exact ⟨first, second, tupleOf_eq hvalue⟩

/-- Both probes are shown once their register has been read. -/
theorem probe (h : state.Decoded) {index : Nat} (hindex : index < 2) :
    (state.get "battery_temperatures" = none ∧ temperature index state = none) ∨
      (state.get "battery_temperatures").isSome = true ∧
        ∃ b : UInt8, temperature index state = some (.float ((b.toNat : Int) - 20)) := by
  rcases hget : state.get "battery_temperatures" with _ | value
  · refine Or.inl ⟨rfl, ?_⟩
    unfold temperature tupleOf
    rw [hget]
    rfl
  · obtain ⟨first, second, htuple⟩ := h.temperatures hget
    refine Or.inr ⟨rfl, ?_⟩
    unfold temperature
    rw [htuple]
    match index, hindex with
    | 0, _ => exact ⟨first, rfl⟩
    | 1, _ => exact ⟨second, rfl⟩

/-- A cell is a word of millivolts that is not zero. -/
theorem cells (h : state.Decoded) : ∀ cell ∈ cellsAttribute state,
    ∃ n : Nat, 0 < n ∧ n ≤ 65535 ∧ cell = volts n := by
  intro cell hmem
  unfold cellsAttribute tupleOf at hmem
  split at hmem
  · rename_i values hvalue
    obtain ⟨payload, hdecode⟩ := h _ _ hvalue
    rw [decodeKey_cellVoltages] at hdecode
    cases hdecode
    rw [cellVoltages_eq] at hmem
    obtain ⟨n, hn, rfl⟩ := List.mem_map.mp hmem
    obtain ⟨hword, hne⟩ := List.mem_filter.mp hn
    rw [← map_cellOffsets] at hword
    obtain ⟨offset, _, rfl⟩ := List.mem_map.mp hword
    have hlt := u16_lt ((payload.drop offset).take 2)
    exact ⟨_, Nat.pos_of_ne_zero (of_decide_eq_true hne), by omega, rfl⟩
  · cases hmem

theorem cell_bounds (h : state.Decoded) : ∀ cell ∈ cellsAttribute state,
    1 / 1000 ≤ cell ∧ cell ≤ 65535 / 1000 := by
  intro cell hmem
  obtain ⟨n, hpositive, hle, rfl⟩ := h.cells cell hmem
  have hpositive' : (1 : Rat) ≤ n := by exact_mod_cast hpositive
  have hle' : (n : Rat) ≤ 65535 := by exact_mod_cast hle
  unfold volts
  exact ⟨by linarith, by linarith⟩

end ScooterState.Decoded

/-! ## Cells -/

/-- Volts of whole millivolts are not rounded. -/
theorem round_volts_sub (m n : Nat) : round (volts m - volts n) 3 = volts m - volts n := by
  apply round_exact ((m : Int) - n)
  unfold volts
  push_cast
  ring

theorem round_volts (n : Nat) : round (volts n) 3 = volts n := by
  apply round_exact n
  unfold volts
  push_cast
  ring

/-- What a sensor shows of the lowest and the highest cell. -/
def CellStat.summary (low high : Rat) : CellStat → Rat
  | .min => low
  | .max => high
  | .delta => high - low

/-- The lowest and the highest cell of a tuple, with what the sensors show of them. -/
structure Summarizes (cells : List Rat) (low high : Rat) : Prop where
  low_mem : low ∈ cells
  high_mem : high ∈ cells
  bounds : ∀ cell ∈ cells, low ≤ cell ∧ cell ≤ high
  stats : ∀ stat : CellStat, stat.of cells = some (stat.summary low high)

/-- A tuple of cells is summarized without rounding. -/
theorem summarizes {cells : List Rat} (hne : cells ≠ [])
    (hcells : ∀ cell ∈ cells, ∃ n : Nat, cell = volts n) :
    ∃ low high, Summarizes cells low high := by
  obtain ⟨low, hlow⟩ := Option.isSome_iff_exists.mp (List.isSome_min?_iff.mpr hne)
  obtain ⟨high, hhigh⟩ := Option.isSome_iff_exists.mp (List.isSome_max?_iff.mpr hne)
  obtain ⟨hlowMem, hleast⟩ := List.min?_eq_some_iff.mp hlow
  obtain ⟨hhighMem, hmost⟩ := List.max?_eq_some_iff.mp hhigh
  obtain ⟨n, rfl⟩ := hcells low hlowMem
  obtain ⟨m, rfl⟩ := hcells high hhighMem
  refine ⟨volts n, volts m, hlowMem, hhighMem, ?_, ?_⟩
  · exact fun cell hmem => ⟨hleast cell hmem, hmost cell hmem⟩
  · intro stat
    unfold CellStat.of
    rw [hlow, hhigh]
    cases stat with
    | min => exact congrArg some (round_volts n)
    | max => exact congrArg some (round_volts m)
    | delta => exact congrArg some (round_volts_sub m n)

/-- The summaries of a state are all there, or none is. -/
theorem ScooterState.Decoded.cellStats {state : ScooterState} (h : state.Decoded) :
    (cellsAttribute state = [] ∧ ∀ stat, cellStat stat state = none) ∨
      ∃ low high, Summarizes (cellsAttribute state) low high ∧
        ∀ stat, cellStat stat state = some (.float (stat.summary low high)) := by
  by_cases hempty : cellsAttribute state = []
  · refine Or.inl ⟨hempty, fun stat => ?_⟩
    show (stat.of (cellsAttribute state)).map Value.float = none
    rw [hempty]
    rfl
  · have hvolts : ∀ cell ∈ cellsAttribute state, ∃ n : Nat, cell = volts n := by
      intro cell hmem
      obtain ⟨n, _, _, hn⟩ := h.cells cell hmem
      exact ⟨n, hn⟩
    obtain ⟨low, high, hsummary⟩ := summarizes hempty hvolts
    refine Or.inr ⟨low, high, hsummary, fun stat => ?_⟩
    show (stat.of (cellsAttribute state)).map Value.float = _
    rw [hsummary.stats]
    rfl

/-- A byte of a temperature, less its offset. -/
theorem probe_measured (b : UInt8) : (Value.float ((b.toNat : Int) - 20)).Measured (-20) 235 := by
  have hlt := b.toNat_lt
  have hb : b.toNat ≤ 255 := by omega
  have hcast : (b.toNat : Rat) ≤ 255 := by exact_mod_cast hb
  have hpositive : (0 : Rat) ≤ b.toNat := Nat.cast_nonneg _
  show (-20 : Rat) ≤ ((b.toNat : Int) : Rat) - 20 ∧ ((b.toNat : Int) : Rat) - 20 ≤ 235
  rw [Int.cast_natCast]
  exact ⟨by linarith, by linarith⟩

theorem ScooterState.Decoded.summary_measured {state : ScooterState} (h : state.Decoded)
    {low high : Rat} (hsummary : Summarizes (cellsAttribute state) low high) (stat : CellStat) :
    let bounds : Rat × Rat := if stat = .delta then (0, 65534 / 1000) else (1 / 1000, 65535 / 1000)
    (Value.float (stat.summary low high)).Measured bounds.1 bounds.2 := by
  obtain ⟨hleast, _⟩ := h.cell_bounds low hsummary.low_mem
  obtain ⟨_, hmost⟩ := h.cell_bounds high hsummary.high_mem
  have hle := (hsummary.bounds high hsummary.high_mem).1
  cases stat with
  | min =>
    show (1 / 1000 : Rat) ≤ low ∧ low ≤ 65535 / 1000
    exact ⟨hleast, by linarith⟩
  | max =>
    show (1 / 1000 : Rat) ≤ high ∧ high ≤ 65535 / 1000
    exact ⟨by linarith, hmost⟩
  | delta =>
    -- The difference of two cells of the same tuple.
    show (0 : Rat) ≤ high - low ∧ high - low ≤ 65534 / 1000
    exact ⟨by linarith, by linarith⟩

/-! ## A scooter in use -/

/-- Thirteen cells, from 3.900 to 3.912 volts. -/
def liveCells : Bytes := (List.range 13).flatMap fun i => [UInt8.ofNat (0x3C + i), 0x0F]

/-- Every register is answered in full, the codes with what is not zero. -/
def liveScript : List Step :=
  (pollRegisters true).flatMap fun register =>
    [.answer .ok, respond 0 (readReply register.board register.index
      (if register.key = "cell_voltages" then liveCells
        else List.replicate register.length 1)), .answer .ok]

def liveHome : Home StubCrypto where
  world := World.online (fakeClient none) liveScript
  entry := ⟨"Scooter", "C0:FF:EE:00:00:01", none, none⟩
  coordinator := Coordinator.make "C0:FF:EE:00:00:01" "Scooter"

def liveRead : Home StubCrypto := (coordinatorPoll liveHome).2

theorem live_polls : Polls liveHome liveRead := by
  have hrun : (coordinatorPoll liveHome).1 = .ret () := by decide +kernel
  exact Polls.start.poll (completed hrun)

/-! ## Every run -/

section Runs

variable {κ : Type} [Cipher κ] {home₀ home home' : Home κ}

theorem Polls.trans (h : Polls home₀ home) (h' : Polls home home') : Polls home₀ home' := by
  induction h' with
  | start => exact h
  | between _ hbetween ih => exact ih.between hbetween
  | poll _ hpoll ih => exact ih.poll hpoll

/-- Run lemma: whatever the scooter sends, only what decodes is kept. -/
theorem Polls.decoded (h : Polls home₀ home) (hstart : home₀.coordinator.state = {}) :
    home.coordinator.state.Decoded := by
  obtain ⟨endings, hhistory⟩ := h.history
  intro key value hvalue
  have hlookup := (hhistory.lookup hstart key).2
  unfold ScooterState.get at hvalue
  rw [hlookup] at hvalue
  obtain ⟨payload, _, hdecode⟩ := List.exists_of_findSome?_eq_some hvalue
  exact ⟨payload, hdecode⟩

/-- A register that has been read stays so. -/
theorem Polls.read_later (h : Polls home home') {key : String}
    (hread : (home.coordinator.state.get key).isSome = true) :
    (home'.coordinator.state.get key).isSome = true := by
  obtain ⟨endings, hhistory⟩ := h.history
  unfold ScooterState.get
  rw [hhistory.state, ScooterState.lookup_update_values]
  split
  · rename_i hmem
    exact Finmap.lookup_isSome.mpr hmem
  · exact hread

/-- In every state between polls, whatever bytes the scooter has sent, a sensor
    that shows a value shows a number within the bounds of its register. -/
theorem sensors_within_bounds (hstart : home₀.coordinator.state = {}) (h : Polls home₀ home) :
    ∀ sensor ∈ sensors, ∀ value, sensor.nativeValue home.coordinator.state = some value →
      value.Measured (sensorBounds sensor.key).1 (sensorBounds sensor.key).2 := by
  intro sensor hmem value hvalue
  have hdecoded := h.decoded hstart
  -- One case for each kind of sensor.
  cases sensors_kind sensor hmem with
  | reads hreads =>
    obtain ⟨hplain, hmeasured⟩ := hdecoded.reads hreads
    rw [hplain] at hvalue
    exact hmeasured value hvalue
  | probe hindex hfn hbounds =>
    unfold SensorDescription.nativeValue at hvalue
    rw [hfn] at hvalue
    rcases hdecoded.probe hindex with ⟨_, hnone⟩ | ⟨_, b, hsome⟩
    · rw [hnone] at hvalue
      cases hvalue
    · rw [hsome] at hvalue
      obtain rfl := Option.some.inj hvalue
      rw [hbounds]
      exact probe_measured b
  | cells hfn hbounds =>
    unfold SensorDescription.nativeValue at hvalue
    rw [hfn] at hvalue
    rcases hdecoded.cellStats with ⟨_, hnone⟩ | ⟨low, high, hsummary, hshown⟩
    · rw [hnone] at hvalue
      cases hvalue
    · rw [hshown] at hvalue
      obtain rfl := Option.some.inj hvalue
      rw [hbounds]
      exact hdecoded.summary_measured hsummary _

/-- The sensor of the first probe. -/
def firstProbe : SensorDescription := ⟨"battery_temperature_1", temperature 0⟩

theorem probes_within_bounds :
    firstProbe.nativeValue probesRead.coordinator.state = some (.float 24) ∧
      (Value.float 24).Measured (sensorBounds firstProbe.key).1
        (sensorBounds firstProbe.key).2 := by
  have hshown : firstProbe.nativeValue probesRead.coordinator.state = some (.float 24) := by
    decide +kernel
  have hmem : firstProbe ∈ sensors := by simp [sensors, firstProbe]
  exact ⟨hshown, sensors_within_bounds rfl probes_polls firstProbe hmem (.float 24) hshown⟩

/-- The three summaries of the cells appear and go together with the cells, are
    those of cells that are listed, and are not rounded. -/
theorem cell_summaries_exact (hstart : home₀.coordinator.state = {}) (h : Polls home₀ home) :
    let state := home.coordinator.state
    (cellsAttribute state = [] ∧ ∀ stat, cellStat stat state = none) ∨
      ∃ low ∈ cellsAttribute state, ∃ high ∈ cellsAttribute state, 0 < low ∧
        (∀ cell ∈ cellsAttribute state, low ≤ cell ∧ cell ≤ high) ∧
        cellStat .min state = some (.float low) ∧ cellStat .max state = some (.float high) ∧
        cellStat .delta state = some (.float (high - low)) := by
  have hdecoded := h.decoded hstart
  rcases hdecoded.cellStats with hnone | ⟨low, high, hsummary, hshown⟩
  · exact Or.inl hnone
  · obtain ⟨hleast, _⟩ := hdecoded.cell_bounds low hsummary.low_mem
    have hpositive : 0 < low := by linarith
    exact Or.inr ⟨low, hsummary.low_mem, high, hsummary.high_mem, hpositive, hsummary.bounds,
      hshown .min, hshown .max, hshown .delta⟩

omit [Cipher κ] in
/-- The cells are 12 millivolts apart. -/
theorem live_cells :
    let state := liveRead.coordinator.state
    cellStat .delta state = some (.float (12 / 1000)) ∧
    ((cellsAttribute state = [] ∧ ∀ stat, cellStat stat state = none) ∨
      ∃ low ∈ cellsAttribute state, ∃ high ∈ cellsAttribute state, 0 < low ∧
        (∀ cell ∈ cellsAttribute state, low ≤ cell ∧ cell ≤ high) ∧
        cellStat .min state = some (.float low) ∧ cellStat .max state = some (.float high) ∧
        cellStat .delta state = some (.float (high - low))) := by
  have hdelta : cellStat .delta liveRead.coordinator.state = some (.float (12 / 1000)) := by
    decide +kernel
  exact ⟨hdelta, cell_summaries_exact rfl live_polls⟩

/-! ### Once known -/

omit [Cipher κ] in
theorem problem_isSome_iff (state : ScooterState) : (problem state).isSome = true ↔
    (state.get "error_code").isSome = true ∨ (state.get "warning_code").isSome = true := by
  unfold problem
  rcases state.get "error_code" with _ | error
  · rcases state.get "warning_code" with _ | warning
    · simp
    · simp
  · simp

omit [Cipher κ] in
/-- A sensor shows something exactly when its register has been read, apart
    from the summaries of the cells. -/
theorem SensorDescription.Kind.known {sensor : SensorDescription} (h : sensor.Kind) :
    (∃ key, ∀ state : ScooterState, state.Decoded →
        (sensor.nativeValue state).isSome = (state.get key).isSome) ∨
      ∃ stat, sensor.valueFn = cellStat stat := by
  cases h with
  | @reads register hreads =>
    refine Or.inl ⟨register.key, fun state hdecoded => ?_⟩
    rw [(hdecoded.reads hreads).1]
  | probe hindex hfn _ =>
    refine Or.inl ⟨"battery_temperatures", fun state hdecoded => ?_⟩
    unfold SensorDescription.nativeValue
    rw [hfn]
    rcases hdecoded.probe hindex with ⟨hget, hnone⟩ | ⟨hget, b, hsome⟩
    · rw [hget, hnone]
    · rw [hget, hsome]
      rfl
  | cells hfn _ => exact Or.inr ⟨_, hfn⟩

omit [Cipher κ] in
theorem SensorDescription.available_iff {sensor : SensorDescription} {advertises : Bool}
    {state : ScooterState} : sensor.available advertises state = true ↔
      advertises = true ∧ (sensor.nativeValue state).isSome = true := by
  unfold SensorDescription.available
  rw [Bool.and_eq_true]

omit [Cipher κ] in
theorem BinarySensorDescription.available_iff {sensor : BinarySensorDescription}
    {advertises : Bool} {state : ScooterState} : sensor.available advertises state = true ↔
      advertises = true ∧ (sensor.isOn state).isSome = true := by
  unfold BinarySensorDescription.available
  rw [Bool.and_eq_true]

/-- An entity that has been available is so again whenever the scooter
    advertises, however many polls have failed in between.  Only the summaries
    of the cells can go, and they go when no cell has a voltage. -/
theorem entities_stay_available (hstart : home₀.coordinator.state = {}) (h : Polls home₀ home)
    (hlater : Polls home home') :
    (∀ sensor ∈ sensors, ∀ advertises,
      sensor.available advertises home.coordinator.state = true →
      sensor.available true home'.coordinator.state = true ∨
        (∃ stat, sensor.valueFn = cellStat stat) ∧ cellsAttribute home'.coordinator.state = []) ∧
    ∀ sensor ∈ binarySensors, ∀ advertises,
      sensor.available advertises home.coordinator.state = true →
      sensor.available true home'.coordinator.state = true := by
  have hdecoded := h.decoded hstart
  have hdecoded' := (h.trans hlater).decoded hstart
  constructor
  · intro sensor hmem advertises havailable
    obtain ⟨_, hknown⟩ := SensorDescription.available_iff.mp havailable
    rcases (sensors_kind sensor hmem).known with ⟨key, hrests⟩ | ⟨stat, hfn⟩
    · left
      rw [hrests _ hdecoded] at hknown
      have hread := hlater.read_later hknown
      rw [← hrests _ hdecoded'] at hread
      exact SensorDescription.available_iff.mpr ⟨rfl, hread⟩
    · rcases hdecoded'.cellStats with ⟨hempty, _⟩ | ⟨low, high, _, hshown⟩
      · exact Or.inr ⟨⟨stat, hfn⟩, hempty⟩
      · left
        apply SensorDescription.available_iff.mpr
        unfold SensorDescription.nativeValue
        rw [hfn, hshown]
        exact ⟨rfl, rfl⟩
  · intro sensor hmem advertises havailable
    obtain ⟨_, hknown⟩ := BinarySensorDescription.available_iff.mp havailable
    apply BinarySensorDescription.available_iff.mpr
    refine ⟨rfl, ?_⟩
    rcases List.mem_cons.mp hmem with rfl | hmem
    · -- The lock.
      unfold BinarySensorDescription.isOn unlocked at *
      rw [Option.isSome_map] at *
      exact hlater.read_later hknown
    · obtain rfl := List.mem_singleton.mp hmem
      unfold BinarySensorDescription.isOn at *
      rw [problem_isSome_iff] at *
      exact hknown.imp hlater.read_later hlater.read_later

omit [Cipher κ] in
/-- The second poll reads a payload of the probes that does not decode. -/
theorem probes_stay_available :
    (∀ sensor ∈ sensors, ∀ advertises,
      sensor.available advertises (coordinatorPoll probesHome).2.coordinator.state = true →
      sensor.available true probesRead.coordinator.state = true ∨
        (∃ stat, sensor.valueFn = cellStat stat) ∧
          cellsAttribute probesRead.coordinator.state = []) ∧
    ∀ sensor ∈ binarySensors, ∀ advertises,
      sensor.available advertises (coordinatorPoll probesHome).2.coordinator.state = true →
      sensor.available true probesRead.coordinator.state = true := by
  have hrun : (coordinatorPoll probesHome).1 = .ret () ∧
      (coordinatorPoll (coordinatorPoll probesHome).2).1 = .ret () := by decide +kernel
  exact entities_stay_available rfl (Polls.start.poll (completed hrun.1))
    (Polls.start.poll (completed hrun.2))

/-! ### The binary sensors -/

omit [Cipher κ] in
/-- The problem sensor, by the payloads that its two registers were decoded from. -/
theorem problem_of_payloads {state : ScooterState} {error warning : Option Bytes}
    (herror : state.get "error_code" = error.map fun payload => .int (u16 payload))
    (hwarning : state.get "warning_code" = warning.map fun payload => .int (u16 payload)) :
    (problem state = none ↔ error = none ∧ warning = none) ∧
    (problem state = some true ↔
      (∃ payload ∈ error, u16 payload ≠ 0) ∨ ∃ payload ∈ warning, u16 payload ≠ 0) := by
  unfold problem
  rw [herror, hwarning]
  rcases error with _ | error
  · rcases warning with _ | warning
    · simp
    · simp [Value.truthy]
  · rcases warning with _ | warning
    · simp [Value.truthy]
    · simp [Value.truthy]

omit [Cipher κ] in
/-- When every payload decodes, the newest is the one that counts. -/
theorem findSome?_head {α β : Type} {f : α → Option β} {g : α → β} (h : ∀ a, f a = some (g a))
    (items : List α) : items.findSome? f = items.head?.map g := by
  cases items with
  | nil => rfl
  | cons a items => rw [List.findSome?_cons, h]; rfl

/-- The problem sensor is known once either code has been read, and is on
    exactly when the code that was read last of either register is not zero;
    the lock is on exactly when the bit that was read last is not set. -/
theorem binarySensors_follow {endings : List PollEnd} (hstart : home₀.coordinator.state = {})
    (h : History home₀ endings home) :
    let state := home.coordinator.state
    (problem state = none ↔
      payloads "error_code" endings = [] ∧ payloads "warning_code" endings = []) ∧
    (problem state = some true ↔ ∃ key ∈ ["error_code", "warning_code"],
      ∃ payload ∈ (payloads key endings).head?, u16 payload ≠ 0) ∧
    unlocked state = (payloads "locked" endings).head?.map fun payload => !bit 0 payload := by
  intro state
  have hlookup : ∀ key, state.get key = (payloads key endings).findSome? (decodeKey key) :=
    fun key => (h.lookup hstart key).2
  -- The three decoders never fail, so the newest payload is the one that counts.
  have herror : state.get "error_code" =
      (payloads "error_code" endings).head?.map fun payload => .int (u16 payload) :=
    (hlookup _).trans (findSome?_head (fun _ => rfl) _)
  have hwarning : state.get "warning_code" =
      (payloads "warning_code" endings).head?.map fun payload => .int (u16 payload) :=
    (hlookup _).trans (findSome?_head (fun _ => rfl) _)
  have hlocked : state.get "locked" =
      (payloads "locked" endings).head?.map fun payload => .bool (bit 0 payload) :=
    (hlookup _).trans (findSome?_head (fun _ => rfl) _)
  obtain ⟨hnone, htrue⟩ := problem_of_payloads herror hwarning
  refine ⟨?_, ?_, ?_⟩
  · rw [hnone, List.head?_eq_none_iff, List.head?_eq_none_iff]
  · rw [htrue]
    simp only [List.mem_cons, List.not_mem_nil, or_false, exists_eq_or_imp, exists_eq_left]
  · unfold unlocked
    rw [hlocked, Option.map_map]
    rfl

omit [Cipher κ] in
/-- An error code is set, and so is the bit of the lock. -/
theorem live_binarySensors : ∃ endings, History liveHome endings liveRead ∧
    let state := liveRead.coordinator.state
    problem state = some true ∧ unlocked state = some false ∧
    (problem state = none ↔
      payloads "error_code" endings = [] ∧ payloads "warning_code" endings = []) ∧
    (problem state = some true ↔ ∃ key ∈ ["error_code", "warning_code"],
      ∃ payload ∈ (payloads key endings).head?, u16 payload ≠ 0) ∧
    unlocked state = (payloads "locked" endings).head?.map fun payload => !bit 0 payload := by
  obtain ⟨endings, h⟩ := live_polls.history
  have hshown : problem liveRead.coordinator.state = some true ∧
      unlocked liveRead.coordinator.state = some false := by decide +kernel
  exact ⟨endings, h, hshown.1, hshown.2, binarySensors_follow rfl h⟩

end Runs

/-! ## What the scooter stores -/

/-- The bytes that a scooter stores for the register of a key. -/
def RegisterFile.stored (self : RegisterFile) (key : String) : Bytes :=
  match registersByKey key with
  | .ok register => self.payload register
  | .error _ => []

/-- The first poll of a connection reads every register. -/
theorem mem_pollRegisters_true {register : Register} (h : register ∈ registers) :
    register ∈ pollRegisters true := by
  show register ∈ staticRegisters ++ dynamicRegisters
  unfold staticRegisters dynamicRegisters
  rw [List.mem_append, List.mem_filter, List.mem_filter]
  cases register.static with
  | false => exact Or.inr ⟨h, rfl⟩
  | true => exact Or.inl ⟨h, rfl⟩

/-- A decoder that can fail belongs to a register of several bytes. -/
theorem registers_total : ∀ register ∈ registers, 3 ≤ register.length ∨
    ∀ payload, ∃ value, register.decode payload = .ok value := by
  simp only [registers, mcuRegisters, bmsRegisters, bleRegisters, serialNumber,
    List.forall_mem_append, List.forall_mem_cons, List.not_mem_nil, false_imp_iff, implies_true,
    and_true]
  refine ⟨⟨?_, ?_⟩, ?_⟩
  all_goals repeat' apply And.intro
  all_goals first
    | exact Or.inl (by decide)
    | exact Or.inr fun _ => ⟨_, rfl⟩

/-- Two bytes are enough for every decoder. -/
theorem Decoder.long {decode : Bytes → Except Exc Value} (h : Decoder decode) {payload : Bytes}
    (hlong : 2 ≤ payload.length) : ∃ value, decode payload = .ok value := by
  cases h with
  | temperaturePair =>
    rcases payload with _ | ⟨first, _ | ⟨second, rest⟩⟩
    · cases hlong
    · simp at hlong
    · exact ⟨_, rfl⟩
  | _ => exact ⟨_, rfl⟩

/-- What a scooter stores of a register that can be read decodes. -/
theorem FakeScooter.Answers.converts {S : FakeScooter} (h : S.Answers) {register : Register}
    (hmem : register ∈ Ninebot.registers) :
    ∃ value, register.convert (S.registers.payload register) = .ok value := by
  have hdecode : ∃ value, register.decode (S.registers.payload register) = .ok value := by
    rcases registers_total register hmem with hlength | htotal
    · obtain ⟨payload, hholds⟩ := h.holds register hmem
      apply (registers_decoder register hmem).long
      have hwhole := hholds.whole
      unfold RegisterFile.payload
      rw [hholds.stored, Option.getD_some, List.length_take]
      omega
    · exact htotal _
  obtain ⟨value, hvalue⟩ := hdecode
  rcases hconvert : register.convert (S.registers.payload register) with e | converted
  · rw [Register.convert_error hconvert] at hvalue
    cases hvalue
  · exact ⟨converted, rfl⟩

namespace FakeScooter.Answers

variable {S : FakeScooter}

/-- Enough bytes are stored for both probes. -/
theorem probes (h : S.Answers) : ∃ first second rest,
    S.registers.stored "battery_temperatures" = first :: second :: rest := by
  have hfound : registersByKey "battery_temperatures" = .ok
      { key := "battery_temperatures", board := .bms, index := 0x96, length := 4,
        decode := temperaturePair } := rfl
  obtain ⟨payload, hholds⟩ := h.holds _ (registersByKey_mem hfound).1
  have hstored : S.registers.stored "battery_temperatures" = payload.take 4 := by
    unfold RegisterFile.stored
    rw [hfound]
    unfold RegisterFile.payload
    dsimp only
    rw [hholds.stored]
    rfl
  have hwhole := hholds.whole
  rw [hstored]
  rcases payload with _ | ⟨first, _ | ⟨second, rest⟩⟩
  · simp at hwhole
  · simp at hwhole
  · exact ⟨first, second, _, rfl⟩

/-- Both temperatures are shown. -/
theorem temperatures (h : S.Answers) {state : ScooterState}
    (hget : ∀ value, decodeKey "battery_temperatures" (S.registers.stored "battery_temperatures") =
      some value → state.get "battery_temperatures" = some value) :
    ∀ index < 2, ∃ b ∈ (S.registers.stored "battery_temperatures")[index]?,
      temperature index state = some (.float ((b.toNat : Int) - 20)) := by
  obtain ⟨first, second, rest, hstored⟩ := h.probes
  have hpair : decodeKey "battery_temperatures" (S.registers.stored "battery_temperatures") =
      some (.floats [(first.toNat : Int) - 20, (second.toNat : Int) - 20]) := by
    rw [hstored, decodeKey_temperatures]
    rfl
  have htuple := tupleOf_eq (hget _ hpair)
  intro index hindex
  unfold temperature
  rw [hstored, htuple]
  match index, hindex with
  | 0, _ => exact ⟨first, rfl, rfl⟩
  | 1, _ => exact ⟨second, rfl, rfl⟩

end FakeScooter.Answers

end Ninebot
