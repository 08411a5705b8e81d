import Mathlib

/-!
# Bisection of an interval

A bisection of `left..right` that looks for a number of `lo..hi` halves the interval until a middle lies
there. Which number of `lo..hi` it meets depends on the numbers alone.
-/

namespace MidnightNode.Bisection

variable {lo hi left right m : Nat}

/-- The first middle within `lo..hi`. -/
def meeting (lo hi left right : Nat) : Option Nat :=
  if left ≤ right then
    if (left + right) / 2 < lo then meeting lo hi ((left + right) / 2 + 1) right
    else if hi < (left + right) / 2 then meeting lo hi left ((left + right) / 2 - 1)
    else some ((left + right) / 2)
  else none
termination_by right + 1 - left

theorem mem_of_meeting (h : meeting lo hi left right = some m) : lo ≤ m ∧ m ≤ hi := by
  fun_induction meeting lo hi left right with
  | case1 _ _ _ _ ih => exact ih h
  | case2 _ _ _ _ _ ih => exact ih h
  | case3 left right _ hlo hhi =>
    cases h
    exact ⟨Nat.not_lt.mp hlo, Nat.not_lt.mp hhi⟩
  | case4 => cases h

/-- A bisection of an interval around `lo..hi` meets it. -/
theorem exists_meeting (hne : lo ≤ hi) (hleft : left ≤ lo) (hright : hi ≤ right) :
    ∃ m, meeting lo hi left right = some m := by
  fun_induction meeting lo hi left right with
  | case1 _ _ _ hlo ih => exact ih hlo hright
  | case2 left right _ hlo hhi ih => exact ih hleft (Nat.le_sub_one_of_lt hhi)
  | case3 left right => exact ⟨_, rfl⟩
  | case4 left right hlt => exact absurd (hleft.trans (hne.trans hright)) hlt

/-- Keys that never decrease lie in a range for consecutive numbers. -/
theorem exists_interval {key : Nat → Nat} {first last start stop : Nat}
    (hmono : ∀ m n, first ≤ m → m ≤ n → n ≤ last → key m ≤ key n)
    (hex : ∃ n, (first ≤ n ∧ n ≤ last) ∧ start ≤ key n ∧ key n < stop) :
    ∃ lo hi, ∀ n, (first ≤ n ∧ n ≤ last) ∧ start ≤ key n ∧ key n < stop ↔ lo ≤ n ∧ n ≤ hi := by
  let InRange : Nat → Prop := fun n => (first ≤ n ∧ n ≤ last) ∧ start ≤ key n ∧ key n < stop
  obtain ⟨lo, hlo, hmin⟩ : ∃ lo, InRange lo ∧ ∀ n, InRange n → lo ≤ n :=
    ⟨Nat.find hex, Nat.find_spec hex, fun n hn => Nat.find_min' hex hn⟩
  have hhi : InRange (Nat.findGreatest InRange last) := Nat.findGreatest_spec hlo.1.2 hlo
  refine ⟨lo, Nat.findGreatest InRange last, fun n => ⟨fun hn => ?_, fun hn => ?_⟩⟩
  · exact ⟨hmin n hn, Nat.le_findGreatest hn.1.2 hn⟩
  · exact ⟨⟨hlo.1.1.trans hn.1, hn.2.trans hhi.1.2⟩,
      hlo.2.1.trans (hmono _ _ hlo.1.1 hn.1 (hn.2.trans hhi.1.2)),
      (hmono _ _ (hlo.1.1.trans hn.1) hn.2 hhi.1.2).trans_lt hhi.2.2⟩

end MidnightNode.Bisection
