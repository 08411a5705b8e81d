import Mathlib

/-!
# Sequences that are linked piece by piece

A partial sequence `f : Nat → Option α` is linked on `[lo, hi)` when it is defined there and each element
is related to the next one. A sequence that is checked in pieces, in any order, is linked on the range
the pieces cover if the elements on both sides of the end of each piece are related.
-/

namespace MidnightNode.LinkedRange

variable {α : Type*} {R : α → α → Prop} {f g : Nat → Option α} {lo hi : Nat}

/-- Every element of `f` is the element of `g` there. -/
def Extends (f g : Nat → Option α) : Prop := ∀ ⦃i a⦄, f i = some a → g i = some a

theorem Extends.refl (f : Nat → Option α) : Extends f f := fun _ _ h => h

theorem Extends.trans {h : Nat → Option α} (hfg : Extends f g) (hgh : Extends g h) : Extends f h :=
  fun _ _ hf => hgh (hfg hf)

/-- The elements before and at `k` are related, where there are both. -/
def JoinedAt (R : α → α → Prop) (f : Nat → Option α) (k : Nat) : Prop :=
  ∀ a b, f (k - 1) = some a → f k = some b → R a b

theorem JoinedAt.anti {k : Nat} (h : JoinedAt R g k) (hext : Extends f g) : JoinedAt R f k :=
  fun a b ha hb => h a b (hext ha) (hext hb)

structure LinkedOn (R : α → α → Prop) (f : Nat → Option α) (lo hi : Nat) : Prop where
  defined : ∀ i, lo ≤ i → i < hi → ∃ a, f i = some a
  joined : ∀ i, lo ≤ i → i + 1 < hi → JoinedAt R f (i + 1)

namespace LinkedOn

theorem mono (h : LinkedOn R f lo hi) (hext : Extends f g) : LinkedOn R g lo hi where
  defined i hlo hhi := (h.defined i hlo hhi).imp fun _ ha => hext ha
  joined i hlo hhi a b ha hb := by
    obtain ⟨a', ha'⟩ := h.defined i hlo (by omega)
    obtain ⟨b', hb'⟩ := h.defined (i + 1) (by omega) hhi
    cases (hext ha').symm.trans ha
    cases (hext hb').symm.trans hb
    exact h.joined i hlo hhi a b ha' hb'

/-- A part of a linked sequence that is complete on the range. -/
theorem anti (h : LinkedOn R g lo hi) (hext : Extends f g)
    (hdefined : ∀ i, lo ≤ i → i < hi → ∃ a, f i = some a) : LinkedOn R f lo hi where
  defined := hdefined
  joined i hlo hhi := (h.joined i hlo hhi).anti hext

theorem restrict {lo' hi' : Nat} (h : LinkedOn R f lo hi) (hlo : lo ≤ lo') (hhi : hi' ≤ hi) :
    LinkedOn R f lo' hi' where
  defined i h1 h2 := h.defined i (hlo.trans h1) (h2.trans_le hhi)
  joined i h1 h2 := h.joined i (hlo.trans h1) (h2.trans_le hhi)

theorem ofList {l : List α} (hl : ∀ k (hk : k < l.length), f (lo + k) = some l[k])
    (hlength : hi ≤ lo + l.length) (hrel : ∀ p ∈ l.zip (l.drop 1), R p.1 p.2) :
    LinkedOn R f lo hi where
  defined i hlo hhi := by
    obtain ⟨k, rfl⟩ := Nat.exists_eq_add_of_le hlo
    exact ⟨_, hl k (by omega)⟩
  joined i hlo hhi a b ha hb := by
    obtain ⟨k, rfl⟩ := Nat.exists_eq_add_of_le hlo
    cases (hl k (by omega)).symm.trans ha
    cases (hl (k + 1) (by omega)).symm.trans hb
    have hk : k < (l.zip (l.drop 1)).length := by simp; omega
    have hmem := List.getElem_mem hk
    simp only [List.getElem_zip, List.getElem_drop, Nat.add_comm 1 k] at hmem
    exact hrel _ hmem

/-- Two ranges that have an element in common. -/
theorem union {lo' hi' : Nat} (h : LinkedOn R f lo hi) (h' : LinkedOn R f lo' hi')
    (hover : lo' < hi) : LinkedOn R f lo hi' where
  defined i hlo hhi :=
    if hi' : i < hi then h.defined i hlo hi' else h'.defined i (by omega) hhi
  joined i hlo hhi :=
    if hi' : i + 1 < hi then h.joined i hlo hi' else h'.joined i (by omega) hhi

/-- The pieces may overlap and stand in any order. -/
theorem ofPieces {ι : Type*} {lower upper : ι → Nat} {pieces : List ι}
    (hcover : ∀ i, lo ≤ i → i < hi → ∃ p ∈ pieces, lower p ≤ i ∧ i < upper p)
    (hlinked : ∀ p ∈ pieces, LinkedOn R f (lower p) (upper p))
    (hends : ∀ p ∈ pieces, JoinedAt R f (upper p)) : LinkedOn R f lo hi where
  defined i hlo hhi := by
    obtain ⟨p, hp, h1, h2⟩ := hcover i hlo hhi
    exact (hlinked p hp).defined i h1 h2
  joined i hlo hhi := by
    obtain ⟨p, hp, h1, h2⟩ := hcover i hlo (by omega)
    by_cases hnext : i + 1 < upper p
    · exact (hlinked p hp).joined i h1 hnext
    · have hend : upper p = i + 1 := by omega
      exact hend ▸ hends p hp

end LinkedOn

end MidnightNode.LinkedRange
