import Ninebot.Lib.Latest
import Ninebot.Pynebot.Models

/-! # Merging snapshots

    `ScooterState.update` treats its three maps differently: values and raw
    payloads are overwritten, a failure goes when its register is read again.
    After any sequence of snapshots each map still holds, key by key, what the
    latest snapshot said that had something to say.

    This file defines:
    - `lookup_update_*`: one key after one merge
    - `ScooterState.merge`: the snapshots of many polls, merged in order
    - the laws of `update`: an associative operation with a unit -/

namespace Ninebot

namespace ScooterState

/-! ## One key after one merge -/

theorem lookup_union {α : Type} (d d' : Dict α) (key : String) :
    (d ∪ d').lookup key = if key ∈ d then d.lookup key else d'.lookup key := by
  by_cases h : key ∈ d
  · rw [if_pos h, Finmap.lookup_union_left h]
  · rw [if_neg h, Finmap.lookup_union_right h]

theorem lookup_union_or {α : Type} (d d' : Dict α) (key : String) :
    (d ∪ d').lookup key = (d.lookup key).or (d'.lookup key) := by
  rw [lookup_union]
  by_cases h : key ∈ d
  · obtain ⟨value, hvalue⟩ := Finmap.mem_iff.mp h
    rw [if_pos h, hvalue]
    rfl
  · rw [if_neg h, Finmap.lookup_eq_none.mpr h]
    rfl

/-- Erasing entries one after the other. -/
theorem lookup_foldl_erase_list {α β : Type} (entries : List (Σ _ : String, β)) (d : Dict α)
    (key : String) :
    (entries.foldl (fun d entry => d.erase entry.1) d).lookup key =
      if key ∈ entries.map Sigma.fst then none else d.lookup key := by
  induction entries generalizing d with
  | nil => rfl
  | cons entry entries ih =>
    rw [List.foldl_cons, ih]
    by_cases hlater : key ∈ entries.map Sigma.fst
    · simp [hlater]
    · by_cases hhere : key = entry.1
      · subst hhere
        simp [hlater, Finmap.lookup_erase]
      · simp [hlater, hhere, Finmap.lookup_erase_ne]

/-- Dropping the keys of another map drops these and no other. -/
theorem lookup_foldl_erase {α β : Type} (d : Dict α) (d' : Dict β) (key : String) :
    (d'.foldl (fun d key _ => d.erase key) (fun _ _ _ _ _ => Finmap.erase_erase) d).lookup key =
      if key ∈ d' then none else d.lookup key := by
  induction d' using Finmap.induction_on with
  | _ a =>
    have hmem : key ∈ (AList.toFinmap a) ↔ key ∈ a.entries.map Sigma.fst := Iff.rfl
    simp only [hmem]
    exact lookup_foldl_erase_list a.entries d key

variable (self other : ScooterState) (key : String)

theorem lookup_update_values :
    (self.update other).values.lookup key =
      if key ∈ other.values then other.values.lookup key else self.values.lookup key :=
  lookup_union _ _ _

theorem lookup_update_raw :
    (self.update other).raw.lookup key =
      if key ∈ other.raw then other.raw.lookup key else self.raw.lookup key :=
  lookup_union _ _ _

/-- A snapshot that has a value for the key, or failed to read it. -/
def mentions (self : ScooterState) (key : String) : Bool := key ∈ self.values ∨ key ∈ self.failures

theorem lookup_update_failures :
    (self.update other).failures.lookup key =
      if other.mentions key then other.failures.lookup key else self.failures.lookup key := by
  show (other.failures ∪ _).lookup key = _
  rw [lookup_union, lookup_foldl_erase]
  by_cases hf : key ∈ other.failures
  · simp [mentions, hf]
  · by_cases hv : key ∈ other.values
    · simp [mentions, hv, Finmap.lookup_eq_none.mpr hf]
    · simp [mentions, hf, hv]

/-! ## The laws of `update` -/

variable {self other} in
/-- Snapshots are equal when they say the same about every key. -/
theorem ext_lookup (hvalues : ∀ key, self.values.lookup key = other.values.lookup key)
    (hraw : ∀ key, self.raw.lookup key = other.raw.lookup key)
    (hfailures : ∀ key, self.failures.lookup key = other.failures.lookup key) : self = other := by
  obtain ⟨values, raw, failures⟩ := self
  obtain ⟨values', raw', failures'⟩ := other
  have h₁ : values = values' := Finmap.ext_lookup hvalues
  have h₂ : raw = raw' := Finmap.ext_lookup hraw
  have h₃ : failures = failures' := Finmap.ext_lookup hfailures
  rw [h₁, h₂, h₃]

theorem mem_update_values : key ∈ (self.update other).values ↔
    key ∈ other.values ∨ key ∈ self.values :=
  Finmap.mem_union

theorem mem_update_raw : key ∈ (self.update other).raw ↔ key ∈ other.raw ∨ key ∈ self.raw :=
  Finmap.mem_union

theorem mem_update_failures : key ∈ (self.update other).failures ↔
    key ∈ other.failures ∨ key ∈ self.failures ∧ key ∉ other.values := by
  rw [← Finmap.lookup_isSome, lookup_update_failures]
  by_cases hf : key ∈ other.failures
  · simp [mentions, hf, Finmap.lookup_isSome]
  · by_cases hv : key ∈ other.values
    · simp [mentions, hf, hv, Finmap.lookup_isSome]
    · simp [mentions, hf, hv, Finmap.lookup_isSome]

/-- A value that a merge drops from the failures stays among the values. -/
theorem mentions_update : (self.update other).mentions key =
    (other.mentions key || self.mentions key) := by
  have hvalues := mem_update_values self other key
  have hfailures := mem_update_failures self other key
  by_cases hf : key ∈ other.failures
  · simp [mentions, hvalues, hfailures, hf]
  · by_cases hv : key ∈ other.values
    · simp [mentions, hvalues, hv]
    · simp [mentions, hvalues, hfailures, hf, hv]

theorem update_assoc (s t u : ScooterState) : (s.update t).update u = s.update (t.update u) := by
  apply ext_lookup
  · intro key
    by_cases hu : key ∈ u.values
    · simp [lookup_update_values, mem_update_values, hu]
    · simp [lookup_update_values, mem_update_values, hu]
  · intro key
    by_cases hu : key ∈ u.raw
    · simp [lookup_update_raw, mem_update_raw, hu]
    · simp [lookup_update_raw, mem_update_raw, hu]
  · intro key
    by_cases hu : u.mentions key
    · simp [lookup_update_failures, mentions_update, hu]
    · simp [lookup_update_failures, mentions_update, hu]

theorem update_empty (s : ScooterState) : s.update {} = s := by
  have hempty : ∀ key, (({} : ScooterState).mentions key) = false := by
    intro key
    simp [mentions, Finmap.notMem_empty]
  apply ext_lookup
  · intro key
    rw [lookup_update_values, if_neg Finmap.notMem_empty]
  · intro key
    rw [lookup_update_raw, if_neg Finmap.notMem_empty]
  · intro key
    rw [lookup_update_failures, hempty]
    rfl

theorem empty_update (s : ScooterState) : ({} : ScooterState).update s = s := by
  apply ext_lookup
  · intro key
    rw [lookup_update_values]
    by_cases h : key ∈ s.values <;> simp [h, Finmap.lookup_eq_none.mpr]
  · intro key
    rw [lookup_update_raw]
    by_cases h : key ∈ s.raw <;> simp [h, Finmap.lookup_eq_none.mpr]
  · intro key
    rw [lookup_update_failures]
    by_cases h : key ∈ s.failures
    · simp [mentions, h]
    · rw [Finmap.lookup_eq_none.mpr h]
      simp

instance : Std.Associative update := ⟨update_assoc⟩

/-! ## Many merges -/

/-- The snapshots merged in order into an empty state. -/
def merge (snapshots : List ScooterState) : ScooterState := snapshots.foldl update {}

theorem foldl_update (s : ScooterState) (snapshots : List ScooterState) :
    snapshots.foldl update s = s.update (merge snapshots) := by
  have h : snapshots.foldl update (s.update {}) = s.update (snapshots.foldl update {}) :=
    List.foldl_assoc
  rwa [update_empty] at h

theorem merge_append (before after : List ScooterState) :
    merge (before ++ after) = (merge before).update (merge after) := by
  unfold merge
  rw [List.foldl_append]
  exact foldl_update _ _

theorem merge_concat (snapshots : List ScooterState) (s : ScooterState) :
    merge (snapshots ++ [s]) = (merge snapshots).update s := by
  unfold merge
  rw [List.foldl_append]
  rfl

theorem merge_cons (s : ScooterState) (snapshots : List ScooterState) :
    merge (s :: snapshots) = s.update (merge snapshots) := by
  unfold merge
  rw [List.foldl_cons, empty_update]
  exact foldl_update _ _

variable {key} in
/-- A map whose entry at `key` every merge overwrites or leaves alone. -/
theorem lookup_merge {α : Type} {map : ScooterState → Dict α} {writes : ScooterState → Bool}
    (hempty : map {} = ∅) (hstep : ∀ s t, (map (s.update t)).lookup key =
      if writes t then (map t).lookup key else (map s).lookup key) (snapshots : List ScooterState) :
    (map (merge snapshots)).lookup key =
      (latest writes snapshots).bind fun s => (map s).lookup key := by
  have h := view_foldl (fun s => (map s).lookup key) hstep {} snapshots
  rw [hempty] at h
  show (map (snapshots.foldl update {})).lookup key = _
  rw [h]
  cases latest writes snapshots <;> rfl

/-- Each map holds what the latest snapshot said that had something to say
    about the key, and a run of snapshots may be merged first. -/
theorem merge_latest (snapshots : List ScooterState) :
    (∀ key, (merge snapshots).values.lookup key =
      (latest (fun s => key ∈ s.values) snapshots).bind (·.values.lookup key)) ∧
    (∀ key, (merge snapshots).raw.lookup key =
      (latest (fun s => key ∈ s.raw) snapshots).bind (·.raw.lookup key)) ∧
    (∀ key, (merge snapshots).failures.lookup key =
      (latest (·.mentions key) snapshots).bind (·.failures.lookup key)) ∧
    ∀ before run after, snapshots = before ++ run ++ after →
      merge (before ++ merge run :: after) = merge snapshots := by
  refine ⟨?_, ?_, ?_, ?_⟩
  · intro key
    apply lookup_merge rfl
    intro s t
    simp [lookup_update_values]
  · intro key
    apply lookup_merge rfl
    intro s t
    simp [lookup_update_raw]
  · intro key
    apply lookup_merge rfl
    intro s t
    exact lookup_update_failures s t key
  · rintro before run after rfl
    rw [merge_append, merge_append, merge_append, merge_cons, update_assoc]

end ScooterState

end Ninebot
