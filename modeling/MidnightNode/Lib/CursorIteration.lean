import Mathlib

/-!
# Iterating a map from a cursor

A map is read row by row in the order of a sort key; the key of the last row read is the cursor a
later reader resumes from. `nextRow` is the row such a reader gets, whether or not the row of the
cursor itself still exists.
-/

namespace MidnightNode.CursorIteration

variable {κ : Type u} {α : Type v} {β : Type w} [LinearOrder β]
variable {key : κ → β} {cursor : Option κ} {a b : κ} {v : α}

/-- The rows up to the cursor have been passed. -/
def Passed (key : κ → β) : Option κ → κ → Prop
  | none, _ => False
  | some last, a => key a ≤ key last

instance Passed.decidable (key : κ → β) : ∀ cursor a, Decidable (Passed key cursor a)
  | none, _ => inferInstanceAs (Decidable False)
  | some last, a => inferInstanceAs (Decidable (key a ≤ key last))

/-- The first row after the cursor. -/
def nextRow (key : κ → β) (cursor : Option κ) (m : AList fun _ : κ => α) : Option (Σ _ : κ, α) :=
  (m.entries.filter fun row => decide (¬ Passed key cursor row.1)).argmin fun row => key row.1

variable [DecidableEq κ] {m : AList fun _ : κ => α}

theorem exists_entry_of_mem (h : a ∈ m) : ∃ v, ⟨a, v⟩ ∈ m.entries := by
  obtain ⟨v, hv⟩ := Option.isSome_iff_exists.mp (AList.lookup_isSome.mpr h)
  exact ⟨v, AList.mem_lookup_iff.mp hv⟩

theorem nextRow_eq_some (h : nextRow key cursor m = some ⟨a, v⟩) :
    m.lookup a = some v ∧ ¬ Passed key cursor a ∧
      ∀ b ∈ m, ¬ Passed key cursor b → key a ≤ key b := by
  obtain ⟨hmem, hafter⟩ := List.mem_filter.mp (List.argmin_mem h)
  refine ⟨AList.mem_lookup_iff.mpr hmem, of_decide_eq_true hafter, fun b hb hpassed => ?_⟩
  obtain ⟨w, hw⟩ := exists_entry_of_mem hb
  have hrow : ⟨b, w⟩ ∈ m.entries.filter fun row => decide (¬ Passed key cursor row.1) :=
    List.mem_filter.mpr ⟨hw, decide_eq_true hpassed⟩
  exact List.le_of_mem_argmin (f := fun row : Σ _ : κ, α => key row.1) hrow h

theorem nextRow_eq_none (h : nextRow key cursor m = none) (ha : a ∈ m) : Passed key cursor a := by
  obtain ⟨v, hv⟩ := exists_entry_of_mem ha
  have hnil := List.filter_eq_nil_iff.mp (List.argmin_eq_none.mp h) _ hv
  simpa using hnil

/-- What has been passed stays passed when the cursor moves to the next row. -/
theorem Passed.of_nextRow (hb : Passed key cursor b) (h : nextRow key cursor m = some ⟨a, v⟩) :
    Passed key (some a) b := by
  obtain ⟨-, hafter, -⟩ := nextRow_eq_some h
  cases cursor with
  | none => cases hb
  | some last => exact hb.trans (not_le.mp hafter).le

/-- Moving the cursor to the next row passes that row, and no other row of the map. -/
theorem passed_iff_of_nextRow (hkey : Function.Injective key)
    (h : nextRow key cursor m = some ⟨a, v⟩) (hb : b ∈ m) (hne : b ≠ a) :
    Passed key (some a) b ↔ Passed key cursor b := by
  obtain ⟨-, -, hleast⟩ := nextRow_eq_some h
  refine ⟨fun hpassed => ?_, fun hpassed => hpassed.of_nextRow h⟩
  by_contra hcursor
  exact hne (hkey (le_antisymm hpassed (hleast b hb hcursor)))

end MidnightNode.CursorIteration
