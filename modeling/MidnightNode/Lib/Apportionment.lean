import Mathlib

/-!
# Whole shares and remainders

`n` seats are divided among weights: each weight gets the whole part of its share, and the remainders of
the divisions say what is left. The whole shares never exceed the seats, and the remainders add up to the
seats that are left, in units of the total weight.
-/

namespace MidnightNode.Apportionment

def wholeShares (n total : Nat) (ws : List Nat) : Nat := (ws.map fun w => w * n / total).sum

def remainders (n total : Nat) (ws : List Nat) : Nat := (ws.map fun w => w * n % total).sum

variable {n total : Nat} {ws : List Nat}

theorem wholeShares_mul_add_remainders :
    wholeShares n total ws * total + remainders n total ws = ws.sum * n := by
  induction ws with
  | nil => simp [wholeShares, remainders]
  | cons w ws ih =>
    have hw := Nat.div_add_mod' (w * n) total
    simp only [wholeShares, remainders, List.map_cons, List.sum_cons, Nat.add_mul] at ih ⊢
    omega

theorem wholeShares_le (hpos : 0 < ws.sum) : wholeShares n ws.sum ws ≤ n := by
  have hsum : wholeShares n ws.sum ws * ws.sum + remainders n ws.sum ws = ws.sum * n :=
    wholeShares_mul_add_remainders
  have hle : ws.sum * wholeShares n ws.sum ws ≤ ws.sum * n := by
    rw [Nat.mul_comm]
    omega
  exact Nat.le_of_mul_le_mul_left hle hpos

theorem remainders_eq :
    remainders n ws.sum ws = (n - wholeShares n ws.sum ws) * ws.sum := by
  have hsum : wholeShares n ws.sum ws * ws.sum + remainders n ws.sum ws = ws.sum * n :=
    wholeShares_mul_add_remainders
  rw [Nat.sub_mul, Nat.mul_comm n]
  omega

end MidnightNode.Apportionment
