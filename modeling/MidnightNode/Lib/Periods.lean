import Mathlib

/-!
# Periods of equal length

Time is cut into periods of length `d`, counted from an origin `o`. Two such divisions are compared: the
periods of length `s` from zero lie within those of length `d` from `o` when `s` divides both.
-/

namespace MidnightNode.Periods

variable {o d s t t' : Nat}

/-- The number of the period that `t` lies in. -/
def period (o d t : Nat) : Nat := (t - o) / d

theorem period_start (hd : 0 < d) (k : Nat) : period o d (o + d * k) = k := by
  rw [period, Nat.add_sub_cancel_left, Nat.mul_div_cancel_left k hd]

theorem period_before_start (hd : 0 < d) (k : Nat) : period o d (o + d * (k + 1) - 1) = k := by
  have hsplit : o + d * (k + 1) - 1 - o = (d - 1) + d * k := by
    rw [Nat.mul_succ]
    omega
  rw [period, hsplit, Nat.add_mul_div_left _ _ hd, Nat.div_eq_of_lt (by omega), Nat.zero_add]

theorem period_lt {k : Nat} (ho : o ≤ t) (h : t < o + d * k) : period o d t < k := by
  apply Nat.div_lt_of_lt_mul
  omega

theorem le_of_period_eq {k : Nat} (ho : o ≤ t) (h : period o d t = k) : o + d * k ≤ t := by
  have hle := Nat.mul_div_le (t - o) d
  rw [period] at h
  rw [h] at hle
  omega

/-- Short periods that fill a long one, counted in the long one's length. -/
theorem period_div (hs : 0 < s) (hd : s ∣ d) (o t : Nat) : (t - o) / s / (d / s) = period o d t := by
  obtain ⟨m, rfl⟩ := hd
  rw [Nat.mul_div_cancel_left m hs, Nat.div_div_eq_div_mul, period]

/-- A time that begins no period is in the period of the time before it. -/
theorem period_pred_of_not_dvd (h : ¬ s ∣ t) : period 0 s (t - 1) = period 0 s t := by
  cases t with
  | zero => exact absurd (dvd_zero s) h
  | succ t => exact (Nat.succ_div_of_not_dvd h).symm

/-- Short periods that begin together with the long ones lie within them. -/
theorem period_eq_of_dvd (hd : s ∣ d) (ho : s ∣ o) (h : period 0 s t = period 0 s t') :
    period o d t = period o d t' := by
  obtain ⟨m, rfl⟩ := hd
  obtain ⟨n, rfl⟩ := ho
  have hshift : ∀ t, period (s * n) (s * m) t = (period 0 s t - n) / m := by
    intro t
    rw [period, period, ← Nat.div_div_eq_div_mul, Nat.sub_mul_div, Nat.sub_zero]
  rw [hshift, hshift, h]

end MidnightNode.Periods
