import Mathlib

/-!
# Relational queries

Joins of tables given as lists of rows, and scalar subqueries with `ORDER BY … LIMIT 1`. Such a subquery
does not say which of the rows with the first key it returns, so `firstBy` and `lastBy` are all the rows it
can return, and `coalesce` is all the values it can have.
-/

namespace MidnightNode.Relational

variable {α β κ : Type*}

def join (l : List α) (m : List β) (on : α → β → Bool) : List (α × β) :=
  l.flatMap fun a => (m.filter (on a)).map fun b => (a, b)

@[simp] theorem mem_join {l : List α} {m : List β} {on : α → β → Bool} {r : α × β} :
    r ∈ join l m on ↔ r.1 ∈ l ∧ r.2 ∈ m ∧ on r.1 r.2 = true := by
  obtain ⟨a, b⟩ := r
  simp [join]

section

variable [LE κ] [DecidableLE κ]

/-- The rows that `ORDER BY key ASC LIMIT 1` can return. -/
def firstBy (key : α → κ) (l : List α) : List α := l.filter fun a => l.all fun b => key a ≤ key b

/-- The rows that `ORDER BY key DESC LIMIT 1` can return. -/
def lastBy (key : α → κ) (l : List α) : List α := l.filter fun a => l.all fun b => key b ≤ key a

theorem mem_of_mem_firstBy {key : α → κ} {l : List α} {a : α} (h : a ∈ firstBy key l) : a ∈ l :=
  List.mem_of_mem_filter h

theorem mem_of_mem_lastBy {key : α → κ} {l : List α} {a : α} (h : a ∈ lastBy key l) : a ∈ l :=
  List.mem_of_mem_filter h

end

/-- The values that `COALESCE((SELECT …), default)` can have. -/
def coalesce (default : β) : List β → List β
  | [] => [default]
  | b :: l => b :: l

/-- What holds of the default and of every row of the subquery holds of the result. -/
theorem of_mem_coalesce {p : β → Prop} {default b : β} {f : α → β} {l : List α}
    (h : b ∈ coalesce default (l.map f)) (hdefault : p default) (hl : ∀ a ∈ l, p (f a)) : p b := by
  cases l with
  | nil =>
    rw [List.mem_singleton.mp h]
    exact hdefault
  | cons a l =>
    obtain ⟨a', ha', rfl⟩ := List.mem_map.mp (show b ∈ (a :: l).map f from h)
    exact hl a' ha'

end MidnightNode.Relational
