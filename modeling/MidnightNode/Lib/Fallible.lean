import Mathlib

/-!
# Fallible computations that succeed

What the success of a computation in `Except` says about its parts. A function that makes checks and
calls other fallible functions is taken apart from the outside, one lemma for each check or call, and
what remains is the result.
-/

namespace MidnightNode.Fallible

universe u v

variable {ε : Type u} {α β : Type v} {a : α} {e : ε}

theorem of_check {c : Prop} [Decidable c] {x : Except ε α} (h : (if c then .error e else x) = .ok a) :
    ¬ c ∧ x = .ok a := by
  split at h
  case isTrue => cases h
  case isFalse hc => exact ⟨hc, h⟩

theorem of_condition {c : Prop} [Decidable c] {x : Except ε α}
    (h : (if c then x else .error e) = .ok a) : c ∧ x = .ok a := by
  split at h
  case isTrue hc => exact ⟨hc, h⟩
  case isFalse => cases h

/-- The first computation had a result, and the second went on from it. -/
theorem of_bind {x : Except ε α} {f : α → Except ε β} {b : β} (h : x >>= f = .ok b) :
    ∃ a, x = .ok a ∧ f a = .ok b := by
  match x, h with
  | .ok a, h => exact ⟨a, rfl, h⟩

theorem of_mapError {ε' : Type u} {x : Except ε α} {f : ε → ε'} (h : x.mapError f = .ok a) :
    x = .ok a := by
  match x, h with
  | .ok _, rfl => rfl

/-- An absent value is an error. -/
def okOr (e : ε) : Option α → Except ε α
  | some a => .ok a
  | none => .error e

theorem of_okOr {o : Option α} (h : okOr e o = .ok a) : o = some a := by
  match o, h with
  | some _, rfl => rfl

theorem exists_okOr_iff {o : Option α} : (∃ a, okOr e o = .ok a) ↔ ∃ a, o = some a := by
  refine ⟨fun ⟨a, h⟩ => ⟨a, of_okOr h⟩, ?_⟩
  rintro ⟨a, rfl⟩
  exact ⟨a, rfl⟩

/-- A computation over a list had a result for each element. -/
theorem of_mapM {f : α → Except ε β} {l : List α} {bs : List β} (h : l.mapM f = .ok bs) :
    List.Forall₂ (fun a b => f a = .ok b) l bs := by
  induction l generalizing bs with
  | nil =>
    cases h
    exact .nil
  | cons a l ih =>
    rw [List.mapM_cons] at h
    obtain ⟨b, hb, h⟩ := of_bind h
    obtain ⟨bs', hbs, h⟩ := of_bind h
    cases h
    exact .cons hb (ih hbs)

/-- A computation over a list whose parts all have a result. -/
theorem mapM_ok {f : α → Except ε β} {g : α → β} {l : List α} (h : ∀ a ∈ l, f a = .ok (g a)) :
    l.mapM f = .ok (l.map g) := by
  induction l with
  | nil => rfl
  | cons a l ih =>
    rw [List.mapM_cons, h a List.mem_cons_self, ih fun b hb => h b (List.mem_cons_of_mem _ hb)]
    rfl

/-- A loop that fills the places of an array. -/
theorem foldlM_update {ι : Type v} [DecidableEq ι] {f : ι → Except ε β} {g : ι → β} {l : List ι}
    (h : ∀ i ∈ l, f i = .ok (g i)) (init : ι → β) :
    l.foldlM (fun a i => do let b ← f i; return Function.update a i b) init =
      .ok fun i => if i ∈ l then g i else init i := by
  induction l generalizing init with
  | nil => rfl
  | cons i l ih =>
    rw [List.foldlM_cons, h i List.mem_cons_self]
    refine (ih (fun j hj => h j (List.mem_cons_of_mem _ hj)) _).trans (congrArg Except.ok ?_)
    funext j
    rcases eq_or_ne j i with rfl | hne
    · simp
    · simp [hne]

end MidnightNode.Fallible
