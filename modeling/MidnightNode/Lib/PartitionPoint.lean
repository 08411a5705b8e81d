import Mathlib
import MidnightNode.Lib.SortedSlice

/-!
# Partition points by binary search

`partitionPoint p l` searches for the number of elements at the start of `l` that satisfy `p`. The search
halves the list a number of times that depends on its length only. It is meant for lists in which no
element that satisfies `p` comes after one that does not. A single such element in last place does not
mislead it, unless the list starts with an element that does not satisfy `p`.
-/

namespace MidnightNode.PartitionPoint

universe u

/-- The search among `size` elements from `base` on. -/
def search (p : ℕ → Bool) : (fuel base size : ℕ) → ℕ
  | 0, base, _ => base
  | fuel + 1, base, size =>
    if size ≤ 1 then base
    else search p fuel (if p (base + size / 2) then base + size / 2 else base) (size - size / 2)

variable {α : Type u}

def holdsAt (p : α → Bool) (l : List α) (i : ℕ) : Bool := (l[i]?.map p).getD false

def partitionPoint (p : α → Bool) (l : List α) : ℕ :=
  if l.isEmpty then 0
  else
    let base := search (holdsAt p l) l.length 0 l.length
    if holdsAt p l base then base + 1 else base

section

variable {p : ℕ → Bool} {k m n : ℕ}

/-- The predicate holds below `k` and not from there on, up to the last number but one at least. -/
structure SearchableAt (p : ℕ → Bool) (k m n : ℕ) : Prop where
  below : ∀ i, i < k → p i = true
  above : ∀ i, k ≤ i → i < m → p i = false
  le : k ≤ n
  last : m = n ∨ m + 1 = n ∧ 0 < k ∧ k < m

theorem SearchableAt.search_spec (h : SearchableAt p k m n) {fuel base size : ℕ} (hfuel : size ≤ fuel + 1)
    (hpos : 0 < size) (hbase : base < k ∨ base = 0) (hk : k ≤ base + size) (hn : base + size ≤ n) :
    (search p fuel base size < k ∨ search p fuel base size = 0) ∧ k ≤ search p fuel base size + 1 ∧
      search p fuel base size < n := by
  have hlast := h.last
  induction fuel generalizing base size with
  | zero =>
    simp only [search]
    omega
  | succ fuel ih =>
    rw [search]
    split
    case isTrue => omega
    case isFalse hsize =>
      by_cases hmid : base + size / 2 < k
      · rw [if_pos (h.below _ hmid)]
        apply ih <;> omega
      · -- the last element is not reached, since the search is then below `k` just before it
        have hbelow : base + size / 2 < m := by omega
        have hfalse := h.above _ (not_lt.mp hmid) hbelow
        rw [if_neg (by simp [hfalse])]
        apply ih <;> omega

end

section

variable {p : α → Bool} {l l₁ l₂ : List α} {k m : ℕ}

theorem SearchableAt.partitionPoint_eq (h : SearchableAt (holdsAt p l) k m l.length) :
    partitionPoint p l = k := by
  have hlast := h.last
  have hle := h.le
  rw [partitionPoint]
  split
  case isTrue hempty =>
    rw [List.isEmpty_iff.mp hempty] at hle
    exact (Nat.le_zero.mp hle).symm
  case isFalse hempty =>
    have hpos : 0 < l.length := List.length_pos_iff.mpr fun hnil => hempty (by simp [hnil])
    obtain ⟨hbelow, hk, hn⟩ := @SearchableAt.search_spec _ _ _ _ h l.length 0 l.length (by omega) hpos
      (.inr rfl) (by omega) (by omega)
    dsimp only
    split
    case isTrue htrue =>
      by_contra hne
      have hfalse := h.above (search (holdsAt p l) l.length 0 l.length) (by omega) (by omega)
      rw [hfalse] at htrue
      cases htrue
    case isFalse hfalse =>
      have hge : k ≤ search (holdsAt p l) l.length 0 l.length := by
        by_contra hlt
        exact hfalse (h.below _ (not_le.mp hlt))
      omega

theorem holdsAt_left (h : ∀ a ∈ l₁, p a = true) {i : ℕ} (hi : i < l₁.length) :
    holdsAt p (l₁ ++ l₂) i = true := by
  rw [holdsAt, List.getElem?_append_left hi, List.getElem?_eq_getElem hi]
  exact h _ (List.getElem_mem hi)

theorem holdsAt_right (h : ∀ a ∈ l₂, p a = false) {i : ℕ} (hi : l₁.length ≤ i) :
    holdsAt p (l₁ ++ l₂) i = false := by
  rw [holdsAt, List.getElem?_append_right hi]
  cases hat : l₂[i - l₁.length]? with
  | none => rfl
  | some a => exact h a (List.mem_of_getElem? hat)

theorem partitionPoint_append (h₁ : ∀ a ∈ l₁, p a = true) (h₂ : ∀ a ∈ l₂, p a = false) :
    partitionPoint p (l₁ ++ l₂) = l₁.length := by
  refine SearchableAt.partitionPoint_eq ⟨fun i hi => holdsAt_left h₁ hi, fun i hi _ => ?_, ?_, .inl rfl⟩
  · exact holdsAt_right h₂ hi
  · simp

theorem partitionPoint_append_last (h₁ : ∀ a ∈ l₁, p a = true) (h₂ : ∀ a ∈ l₂, p a = false) (last : α)
    (hne₁ : l₁ ≠ []) (hne₂ : l₂ ≠ []) : partitionPoint p (l₁ ++ (l₂ ++ [last])) = l₁.length := by
  have hpos₁ := List.length_pos_iff.mpr hne₁
  have hpos₂ := List.length_pos_iff.mpr hne₂
  have hlast : (l₁ ++ l₂).length + 1 = (l₁ ++ (l₂ ++ [last])).length ∧ 0 < l₁.length ∧
      l₁.length < (l₁ ++ l₂).length := by
    simp only [List.length_append, List.length_singleton]
    omega
  refine SearchableAt.partitionPoint_eq ⟨fun i hi => holdsAt_left h₁ hi, fun i hi hlt => ?_, ?_,
    .inr hlast⟩
  · have hat : holdsAt p (l₁ ++ (l₂ ++ [last])) i = holdsAt p (l₁ ++ l₂) i := by
      rw [holdsAt, holdsAt, ← List.append_assoc, List.getElem?_append_left hlt]
    rw [hat]
    exact holdsAt_right h₂ hi
  · simp

/-- For a list in order, what comes before the partition point is what satisfies the predicate. -/
theorem partitionPoint_of_pairwise {r : α → α → Prop} (hl : l.Pairwise r)
    (hp : ∀ a b, r a b → p b = true → p a = true) :
    l.take (partitionPoint p l) = l.filter p ∧ l.drop (partitionPoint p l) = l.filter (!p ·) := by
  have hsplit : l = l.filter p ++ l.filter (!p ·) :=
    (SortedSlice.filter_append_filter_not (hl.imp fun {a b} => hp a b)).symm
  have hpoint : partitionPoint p l = (l.filter p).length := by
    conv_lhs => rw [hsplit]
    refine partitionPoint_append (fun a ha => (List.mem_filter.mp ha).2) fun a ha => ?_
    simpa using (List.mem_filter.mp ha).2
  rw [hpoint]
  constructor
  · have htake := congrArg (List.take (l.filter p).length) hsplit
    rwa [List.take_left] at htake
  · have hdrop := congrArg (List.drop (l.filter p).length) hsplit
    rwa [List.drop_left] at hdrop

end

end MidnightNode.PartitionPoint
