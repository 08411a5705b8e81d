import Mathlib

/-!
# Covering a sum by a beginning of a list

Elements are taken in the order of a list until their values cover what is required. In a list that
decreases, no smaller choice of elements covers as much.
-/

namespace MidnightNode.GreedyCover

variable {α : Type*} {f : α → Nat} {l s : List α} {base required n : Nat}

/-- What the first elements of a list sum up to. -/
def sumTo (f : α → Nat) (l : List α) (n : Nat) : Nat := ((l.take n).map f).sum

@[simp] theorem sumTo_zero : sumTo f l 0 = 0 := rfl

@[simp] theorem sumTo_cons_succ (a : α) : sumTo f (a :: l) (n + 1) = f a + sumTo f l n := by
  simp [sumTo]

/-- On top of `base`, the first `n` elements cover what is required, and no fewer; at least one is taken. -/
structure Covering (f : α → Nat) (base required : Nat) (l : List α) (n : Nat) : Prop where
  pos : 0 < n
  le : n ≤ l.length
  covers : required ≤ base + sumTo f l n
  short : ∀ m, 0 < m → m < n → base + sumTo f l m < required

theorem Covering.cons {a : α} (h : Covering f (base + f a) required l n) (hshort : base + f a < required) :
    Covering f base required (a :: l) (n + 1) where
  pos := n.succ_pos
  le := Nat.succ_le_succ h.le
  covers := by
    rw [sumTo_cons_succ, ← Nat.add_assoc]
    exact h.covers
  short m hm hmn := by
    cases m with
    | zero => cases hm
    | succ m =>
      rw [sumTo_cons_succ, ← Nat.add_assoc]
      rcases Nat.eq_zero_or_pos m with rfl | hpos
      · exact hshort
      · exact h.short m hpos (Nat.lt_of_succ_lt_succ hmn)

/-- Of a list that decreases, no elements have a larger sum than as many at its beginning. -/
theorem sum_le_sumTo (hsorted : l.Pairwise fun a b => f b ≤ f a) (hs : s.Subperm l) :
    (s.map f).sum ≤ sumTo f l s.length := by
  classical
  induction l generalizing s with
  | nil => simp [List.subperm_nil.mp hs]
  | cons a l ih =>
    obtain ⟨hle, hsorted⟩ := List.pairwise_cons.mp hsorted
    have herase : (s.erase a).Subperm l := by simpa using hs.erase a
    by_cases ha : a ∈ s
    · have hsum := ((List.perm_cons_erase ha).map f).sum_eq
      rw [List.map_cons, List.sum_cons] at hsum
      rw [hsum, (List.perm_cons_erase ha).length_eq, List.length_cons, sumTo_cons_succ]
      exact Nat.add_le_add_left (ih hsorted herase) _
    · rw [List.erase_of_not_mem ha] at herase
      cases s with
      | nil => simp
      | cons b s =>
        rw [List.map_cons, List.sum_cons, List.length_cons, sumTo_cons_succ]
        exact Nat.add_le_add (hle b (herase.subset List.mem_cons_self))
          (ih hsorted ((List.sublist_cons_self b s).subperm.trans herase))

/-- So no smaller choice covers what is required. -/
theorem Covering.le_length (h : Covering f 0 required l n) (hsorted : l.Pairwise fun a b => f b ≤ f a)
    (hs : s.Subperm l) (hne : s ≠ []) (hcovers : required ≤ (s.map f).sum) : n ≤ s.length := by
  by_contra hlt
  have hshort := h.short s.length (List.length_pos_iff.mpr hne) (Nat.not_le.mp hlt)
  have := sum_le_sumTo hsorted hs
  omega

end MidnightNode.GreedyCover
