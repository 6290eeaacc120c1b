import Mathlib.Data.List.Forall2

/-! # Redaction of nested data

    A dump is a tree of mappings and lists.  Redaction replaces the value under
    certain keys by a marker, however deep in nested mappings the key stands,
    and leaves blank values as they are.

    This file defines:
    - `Data`: the tree
    - `Redacts`: what a redaction does to a mapping
    - `Veils`: values that a redaction does not tell apart
    - `redact`: a redaction that also goes through lists -/

namespace Redaction

/-- Nested plain data with keys `κ` and leaves `α`. -/
inductive Data (κ α : Type) where
  | leaf (a : α)
  | list (items : List (Data κ α))
  | dict (items : List (κ × Data κ α))

variable {κ α : Type}

/-- A leaf with nothing to hide. -/
def Data.isBlank (blank : α → Bool) : Data κ α → Bool
  | .leaf a => blank a
  | _ => false

/-- The value under a key to redact gives way to the marker, unless it is
    blank; any other value is redacted in turn. -/
structure Redacts (blank : α → Bool) (hidden : κ → Bool) (marker : Data κ α)
    (redact : Data κ α → Data κ α) : Prop where
  dict : ∀ items, redact (.dict items) = .dict (items.map fun item =>
    (item.1, if hidden item.1 && !item.2.isBlank blank then marker else redact item.2))

/-- The same entry, or two values of one key that redaction hides. -/
def Veils (blank : α → Bool) (hidden : κ → Bool) (p q : κ × Data κ α) : Prop :=
  p.1 = q.1 ∧ (p.2 = q.2 ∨
    hidden p.1 = true ∧ p.2.isBlank blank = false ∧ q.2.isBlank blank = false)

section Veils

variable {blank : α → Bool} {hidden : κ → Bool}

theorem Veils.refl (p : κ × Data κ α) : Veils blank hidden p p := ⟨rfl, Or.inl rfl⟩

theorem Veils.of_hidden {key : κ} {a b : Data κ α} (hkey : hidden key = true)
    (ha : a.isBlank blank = false) (hb : b.isBlank blank = false) :
    Veils blank hidden (key, a) (key, b) := ⟨rfl, Or.inr ⟨hkey, ha, hb⟩⟩

/-- What a redaction hides has no influence on its result. -/
theorem Redacts.dict_eq {marker : Data κ α} {redact : Data κ α → Data κ α}
    (h : Redacts blank hidden marker redact) {items items' : List (κ × Data κ α)}
    (hitems : List.Forall₂ (Veils blank hidden) items items') :
    redact (.dict items) = redact (.dict items') := by
  rw [h.dict, h.dict]
  congr 1
  induction hitems with
  | nil => rfl
  | @cons p q ps qs hpq _ ih =>
    obtain ⟨hkey, hvalue⟩ := hpq
    rw [List.map_cons, List.map_cons, ih, ← hkey]
    rcases hvalue with hsame | ⟨hhidden, hp, hq⟩
    · rw [hsame]
    · simp [hhidden, hp, hq]

end Veils

/-- Two lists that are computed alike from one list are related item by item. -/
theorem forall₂_filterMap {β γ δ : Type} {R : γ → δ → Prop} {f : β → Option γ} {g : β → Option δ}
    {items : List β} (h : ∀ b ∈ items, Option.Rel R (f b) (g b)) :
    List.Forall₂ R (items.filterMap f) (items.filterMap g) := by
  induction items with
  | nil => exact .nil
  | cons b items ih =>
    have hrest := ih fun c hc => h c (List.mem_cons_of_mem b hc)
    have hhead := h b List.mem_cons_self
    rw [List.filterMap_cons, List.filterMap_cons]
    generalize f b = x at hhead ⊢
    generalize g b = y at hhead ⊢
    cases hhead with
    | none => exact hrest
    | some hbc => exact .cons hbc hrest

/-! ## A redaction -/

section Redact

variable (blank : α → Bool) (hidden : κ → Bool) (marker : Data κ α)

mutual

def redact : Data κ α → Data κ α
  | .leaf a => .leaf a
  | .list items => .list (redactList items)
  | .dict items => .dict (redactDict items)

def redactList : List (Data κ α) → List (Data κ α)
  | [] => []
  | item :: items => redact item :: redactList items

def redactDict : List (κ × Data κ α) → List (κ × Data κ α)
  | [] => []
  | (key, value) :: items =>
      (key, if hidden key && !value.isBlank blank then marker else redact value) ::
        redactDict items

end

theorem redactDict_eq (items : List (κ × Data κ α)) :
    redactDict blank hidden marker items = items.map fun item =>
      (item.1, if hidden item.1 && !item.2.isBlank blank then marker
        else redact blank hidden marker item.2) := by
  induction items with
  | nil => rfl
  | cons item items ih =>
    rw [redactDict, ih]
    rfl

theorem redact_redacts : Redacts blank hidden marker (redact blank hidden marker) where
  dict items := by
    rw [redact, redactDict_eq]

end Redact

end Redaction
