import Mathlib

/-!
# Memo tables

A table in front of a fallible computation `f`: a lookup under the key of the input answers from the
table, a miss runs `f` and keeps what it returns, failures are not kept. Keys are projections of the
input, so an entry can answer for an input other than the one it was computed for.

`Faithful s t` says that no input of `s` can be answered wrongly from `t`. As long as the keys of `s`
determine the result (`Determines`), lookups for inputs of `s` keep a table faithful, and so do
evictions.
-/

namespace MidnightNode.Memo

abbrev Table (κ β : Type*) := AList fun _ : κ => β

variable {α κ β ε : Type*} [DecidableEq κ]

/-- Answer from the table, or compute and keep the result. -/
def getOrCompute (t : Table κ β) (k : κ) (compute : Except ε β) : Except ε β × Table κ β :=
  match t.lookup k with
  | some v => (.ok v, t)
  | none =>
    match compute with
    | .ok v => (.ok v, t.insert k v)
    | .error e => (.error e, t)

section

variable (key : α → κ) (f : α → Except ε β)

/-- What the table answers to an input of `s` is what `f` computes for it. -/
def Faithful (s : Set α) (t : Table κ β) : Prop :=
  ∀ x ∈ s, ∀ v, t.lookup (key x) = some v → f x = .ok v

/-- Inputs of `s` with one key have one result. -/
def Determines (s : Set α) : Prop :=
  ∀ x ∈ s, ∀ y ∈ s, key x = key y → f x = f y

end

variable {key : α → κ} {f : α → Except ε β} {s : Set α} {t : Table κ β} {x : α}

theorem Faithful.empty : Faithful key f s (∅ : Table κ β) := by
  intro x _ v h
  simp at h

theorem Faithful.erase (h : Faithful key f s t) (k : κ) : Faithful key f s (t.erase k) := by
  intro x hx v hv
  by_cases hk : key x = k
  · rw [hk, AList.lookup_erase] at hv
    cases hv
  · rw [AList.lookup_erase_ne hk] at hv
    exact h x hx v hv

/-- A lookup in a faithful table returns what the computation returns. -/
theorem Faithful.getOrCompute_fst (h : Faithful key f s t) (hx : x ∈ s) :
    (getOrCompute t (key x) (f x)).1 = f x := by
  unfold getOrCompute
  cases hl : t.lookup (key x) with
  | some v => exact (h x hx v hl).symm
  | none => cases f x <;> rfl

theorem Faithful.getOrCompute_snd (h : Faithful key f s t) (hs : Determines key f s) (hx : x ∈ s) :
    Faithful key f s (getOrCompute t (key x) (f x)).2 := by
  unfold getOrCompute
  cases hl : t.lookup (key x) with
  | some v => exact h
  | none =>
    cases hf : f x with
    | error e => exact h
    | ok v =>
      intro y hy w hw
      by_cases hk : key y = key x
      · rw [hk, AList.lookup_insert] at hw
        cases hw
        rw [hs y hy x hx hk, hf]
      · rw [AList.lookup_insert_ne hk] at hw
        exact h y hy w hw

end MidnightNode.Memo
