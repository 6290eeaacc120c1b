import Mathlib.Data.List.DropRight
import Mathlib.Tactic.FieldSimp
import Mathlib.Tactic.NormNum
import Ninebot.Entities

/-! # Cell voltages

    `_cell_voltages` says that it drops the trailing empty slots of the pack.
    It drops every empty slot, wherever it is: the cells after it move up, and
    the summaries do not see it.

    This file defines:
    - `words`: the little-endian words of a payload
    - `trimmed`: the words in volts, without the trailing run of zeros
    - `ZerosLast`: no zero word precedes a word that is not zero -/

namespace Ninebot

/-! ## Words -/

/-- The little-endian 16-bit words of a payload; an odd byte at its end is none. -/
def words : Bytes → List Nat
  | low :: high :: rest => (low.toNat + 256 * high.toNat) :: words rest
  | _ => []

theorem cellOffsets_cons (low high : UInt8) (rest : Bytes) :
    cellOffsets (low :: high :: rest) = 0 :: (cellOffsets rest).map (· + 2) := by
  have hhalf : (low :: high :: rest).length / 2 = rest.length / 2 + 1 := by
    simp only [List.length_cons]
    omega
  unfold cellOffsets
  rw [hhalf, List.range_succ_eq_map, List.map_cons, List.map_map, List.map_map]
  rfl

/-- The slices that the decoder takes are the words. -/
theorem map_cellOffsets (data : Bytes) :
    (cellOffsets data).map (fun offset => u16 ((data.drop offset).take 2)) = words data := by
  induction data using words.induct with
  | case1 low high rest ih =>
    rw [cellOffsets_cons, List.map_cons, List.map_map, words, ← ih]
    rfl
  | case2 data hshort =>
    rcases data with _ | ⟨low, _ | ⟨high, rest⟩⟩
    · rfl
    · simp [cellOffsets, words]
    · exact absurd rfl (hshort low high rest)

/-- A word in volts. -/
def volts (word : Nat) : Rat := (word : Rat) / 1000

theorem volts_injective : Function.Injective volts := by
  intro a b h
  unfold volts at h
  have h' : (a : Rat) = b := by
    field_simp at h
    exact h
  exact_mod_cast h'

theorem cellVoltages_eq (payload : Bytes) :
    cellVoltages payload = ((words payload).filter (· ≠ 0)).map volts := by
  unfold cellVoltages
  rw [map_cellOffsets]
  simp only [bind_pure_comp, List.map_eq_map, List.map_map]
  rfl

/-! ## Empty slots -/

/-- The words in volts, without the zeros at the end. -/
def trimmed (payload : Bytes) : List Rat := ((words payload).rdropWhile (· = 0)).map volts

/-- No zero word precedes a word that is not zero. -/
def ZerosLast (payload : Bytes) : Prop := (words payload).Pairwise fun a b => a = 0 → b = 0

instance (payload : Bytes) : Decidable (ZerosLast payload) :=
  inferInstanceAs (Decidable (List.Pairwise _ _))

/-- Dropping all zeros is dropping those at the end when there are no others. -/
theorem filter_eq_rdropWhile_iff (ws : List Nat) :
    ws.filter (· ≠ 0) = ws.rdropWhile (· = 0) ↔ ws.Pairwise fun a b => a = 0 → b = 0 := by
  induction ws using List.reverseRecOn with
  | nil => simp
  | append_singleton ws w ih =>
    rw [List.filter_append, List.rdropWhile_concat, List.pairwise_append]
    by_cases hw : w = 0
    · subst hw
      simpa using ih
    · -- Nothing is dropped at the end, so nothing may be dropped at all.
      have hkeep : [w].filter (· ≠ 0) = [w] := by simp [hw]
      rw [hkeep, if_neg (by simpa using hw), List.append_left_inj, List.filter_eq_self]
      constructor
      · intro hall
        have hne : ∀ a ∈ ws, a ≠ 0 := fun a ha => by simpa using hall a ha
        refine ⟨?_, List.pairwise_singleton _ _, ?_⟩
        · apply List.pairwise_of_forall_mem_list
          intro a ha _ _ hzero
          exact absurd hzero (hne a ha)
        · intro a ha _ _ hzero
          exact absurd hzero (hne a ha)
      · rintro ⟨_, _, hlast⟩ a ha
        have hne : a ≠ 0 := fun hzero => hw (hlast a ha w List.mem_cons_self hzero)
        simpa using hne

theorem cellVoltages_eq_trimmed_iff (payload : Bytes) :
    cellVoltages payload = trimmed payload ↔ ZerosLast payload := by
  rw [cellVoltages_eq, trimmed, ZerosLast, ← filter_eq_rdropWhile_iff]
  exact (List.map_injective_iff.mpr volts_injective).eq_iff

/-! ## What the sensors see -/

/-- The tuple keeps every cell in its place, and so do the sensors that rest on it. -/
structure KeepsPlaces (payload : Bytes) : Prop where
  cells : cellVoltages payload = trimmed payload
  listed : ∀ state : ScooterState,
    state.get "cell_voltages" = some (.floats (cellVoltages payload)) →
    cellsAttribute state = trimmed payload
  stats : ∀ (state : ScooterState) (stat : CellStat),
    state.get "cell_voltages" = some (.floats (cellVoltages payload)) →
    cellStat stat state = (stat.of (trimmed payload)).map .float

theorem tupleOf_eq {state : ScooterState} {key : String} {values : List Rat}
    (h : state.get key = some (.floats values)) : tupleOf key state = values := by
  unfold tupleOf
  rw [h]

/-- Cells keep their places exactly when no empty slot precedes one that is not empty. -/
theorem cellVoltages_keepsPlaces_iff (payload : Bytes) :
    KeepsPlaces payload ↔ ZerosLast payload := by
  rw [← cellVoltages_eq_trimmed_iff]
  constructor
  · exact fun h => h.cells
  · intro h
    refine ⟨h, ?_, ?_⟩
    · intro state hstate
      show tupleOf "cell_voltages" state = _
      rw [tupleOf_eq hstate, h]
    · intro state stat hstate
      unfold cellStat
      rw [tupleOf_eq hstate, h]

/-- The second of three cells reads zero: the third takes its place, and no
    summary shows the zero. -/
theorem hiddenCell :
    ¬ KeepsPlaces [0x3C, 0x0F, 0, 0, 0x3E, 0x0F] ∧
    trimmed [0x3C, 0x0F, 0, 0, 0x3E, 0x0F] = [39 / 10, 0, 3902 / 1000] ∧
    cellVoltages [0x3C, 0x0F, 0, 0, 0x3E, 0x0F] = [39 / 10, 3902 / 1000] ∧
    CellStat.min.of (cellVoltages [0x3C, 0x0F, 0, 0, 0x3E, 0x0F]) = some (39 / 10) ∧
    CellStat.delta.of (cellVoltages [0x3C, 0x0F, 0, 0, 0x3E, 0x0F]) = some (2 / 1000) := by
  refine ⟨?_, ?_, ?_, ?_, ?_⟩
  · intro h
    have hlast := (cellVoltages_eq_trimmed_iff _).mp h.cells
    revert hlast
    decide
  all_goals decide +kernel

end Ninebot
