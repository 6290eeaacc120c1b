import Mathlib.Data.List.Chain

/-! # Paced times

    Times of which each is at least a fixed gap after the one before it.  A
    span of time has room for one more of them than the gap goes into it. -/

/-- Each time is at least `gap` after the one before it. -/
def Paced (gap : Nat) (times : List Nat) : Prop := times.IsChain fun a b => a + gap ≤ b

instance (gap : Nat) (times : List Nat) : Decidable (Paced gap times) :=
  inferInstanceAs (Decidable (List.IsChain _ _))

namespace Paced

variable {gap t : Nat} {times : List Nat}

theorem cons_iff {t' : Nat} : Paced gap (t :: t' :: times) ↔
    t + gap ≤ t' ∧ Paced gap (t' :: times) :=
  List.isChain_cons_cons

theorem singleton : Paced gap [t] := List.IsChain.singleton t

/-- The last of the times is as many gaps after the first. -/
theorem exists_late (h : Paced gap (t :: times)) :
    ∃ last ∈ t :: times, t + times.length * gap ≤ last := by
  induction times generalizing t with
  | nil => exact ⟨t, List.mem_cons_self, by simp⟩
  | cons t' times ih =>
    obtain ⟨hgap, htail⟩ := cons_iff.mp h
    obtain ⟨last, hmem, hlate⟩ := ih htail
    refine ⟨last, List.mem_cons_of_mem _ hmem, ?_⟩
    rw [List.length_cons, Nat.succ_mul]
    omega

/-- Paced times within a span are not many. -/
theorem length_le {start span : Nat} (hgap : 0 < gap) (h : Paced gap times)
    (hspan : ∀ t ∈ times, start ≤ t ∧ t < start + span) : times.length ≤ span / gap + 1 := by
  cases times with
  | nil => exact Nat.zero_le _
  | cons t times =>
    obtain ⟨last, hmem, hlate⟩ := h.exists_late
    have hfirst := (hspan t List.mem_cons_self).1
    have hlast := (hspan last hmem).2
    have hroom : times.length ≤ span / gap := by
      rw [Nat.le_div_iff_mul_le hgap]
      omega
    exact Nat.succ_le_succ hroom

end Paced
