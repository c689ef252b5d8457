import Mathlib.Algebra.Order.Ring.Nat
import Mathlib.Tactic.Ring
import Mathlib.Tactic.SplitIfs

/-!
# Halving

A loop that halves a number until it is within a limit, and the rounding of a product by a fraction
between two such loops.
-/

namespace WixelSdk.Halving

/-- How often `x` is halved until it is at most `limit`. -/
def halvings (limit x : ℕ) : ℕ := if limit < x then halvings limit (x / 2) + 1 else 0
termination_by x
decreasing_by omega

variable {limit x b i j p q : ℕ}

theorem halvings_of_le (h : x ≤ limit) : halvings limit x = 0 := by
  rw [halvings, if_neg (Nat.not_lt.mpr h)]

theorem halvings_of_lt (h : limit < x) : halvings limit x = halvings limit (x / 2) + 1 := by
  rw [halvings, if_pos h]

theorem div_halvings_le (limit x : ℕ) : x / 2 ^ halvings limit x ≤ limit := by
  fun_induction halvings limit x with
  | case1 x h ih => rwa [Nat.pow_succ', ← Nat.div_div_eq_div_mul]
  | case2 x h => rwa [Nat.pow_zero, Nat.div_one, ← Nat.not_lt]

/-- The loop goes on as long as the limit is exceeded. -/
theorem lt_div_of_lt_halvings (h : j < halvings limit x) : limit < x / 2 ^ j := by
  induction j generalizing x with
  | zero =>
    rw [Nat.pow_zero, Nat.div_one]
    by_contra hle
    rw [halvings_of_le (Nat.not_lt.mp hle)] at h
    exact Nat.not_lt_zero 0 h
  | succ j ih =>
    have hlt : limit < x := by
      by_contra hle
      rw [halvings_of_le (Nat.not_lt.mp hle)] at h
      exact Nat.not_lt_zero _ h
    rw [halvings_of_lt hlt] at h
    rw [Nat.pow_succ', ← Nat.div_div_eq_div_mul]
    exact ih (Nat.lt_of_succ_lt_succ h)

theorem halvings_le (h : x / 2 ^ j ≤ limit) : halvings limit x ≤ j :=
  Nat.not_lt.mp fun hlt => Nat.not_lt.mpr h (lt_div_of_lt_halvings hlt)

/-- A number of more than half the limit still has that much after the loop. -/
theorem le_div_halvings (h : (limit + 1) / 2 ≤ x) : (limit + 1) / 2 ≤ x / 2 ^ halvings limit x := by
  cases hj : halvings limit x with
  | zero => rwa [Nat.pow_zero, Nat.div_one]
  | succ j =>
    have hlt : limit < x / 2 ^ j := lt_div_of_lt_halvings (by rw [hj]; exact Nat.lt_succ_self j)
    rw [Nat.pow_succ, ← Nat.div_div_eq_div_mul]
    exact Nat.div_le_div_right hlt

/-- `b` halved `j` times, multiplied by `p / q` and halved `i` times. -/
def scaled (p q i j b : ℕ) : ℕ := p * (b / 2 ^ j) / q / 2 ^ i

theorem scaled_mul_le (p q i j b : ℕ) : scaled p q i j b * 2 ^ (i + j) * q ≤ p * b := by
  calc scaled p q i j b * 2 ^ (i + j) * q
      = scaled p q i j b * 2 ^ i * q * 2 ^ j := by rw [Nat.pow_add]; ring
    _ ≤ p * (b / 2 ^ j) / q * q * 2 ^ j :=
        Nat.mul_le_mul_right _ (Nat.mul_le_mul_right _ (Nat.div_mul_le_self _ _))
    _ ≤ p * (b / 2 ^ j) * 2 ^ j := Nat.mul_le_mul_right _ (Nat.div_mul_le_self _ _)
    _ = p * (b / 2 ^ j * 2 ^ j) := Nat.mul_assoc _ _ _
    _ ≤ p * b := Nat.mul_le_mul_left _ (Nat.div_mul_le_self _ _)

/-- The two roundings after the first loop cost less than one unit, the first loop up to `2 ^ j - 1`. -/
theorem lt_scaled_succ_mul (hq : 0 < q) :
    p * b < (scaled p q i j b + 1) * 2 ^ (i + j) * q + p * (2 ^ j - 1) := by
  have hb : b ≤ b / 2 ^ j * 2 ^ j + (2 ^ j - 1) := by
    have hlt := Nat.lt_mul_div_succ b (Nat.two_pow_pos j)
    rw [Nat.mul_comm, Nat.succ_mul] at hlt
    omega
  have hm : p * (b / 2 ^ j) < (p * (b / 2 ^ j) / q + 1) * q := by
    rw [Nat.mul_comm (_ + 1)]
    exact Nat.lt_mul_div_succ _ hq
  have hM : p * (b / 2 ^ j) / q + 1 ≤ (scaled p q i j b + 1) * 2 ^ i := by
    rw [Nat.mul_comm (_ + 1)]
    exact Nat.lt_mul_div_succ _ (Nat.two_pow_pos i)
  calc p * b ≤ p * (b / 2 ^ j * 2 ^ j + (2 ^ j - 1)) := Nat.mul_le_mul_left p hb
    _ = p * (b / 2 ^ j) * 2 ^ j + p * (2 ^ j - 1) := by rw [Nat.mul_add, Nat.mul_assoc]
    _ < (p * (b / 2 ^ j) / q + 1) * q * 2 ^ j + p * (2 ^ j - 1) :=
        Nat.add_lt_add_right (Nat.mul_lt_mul_of_pos_right hm (Nat.two_pow_pos j)) _
    _ ≤ (scaled p q i j b + 1) * 2 ^ i * q * 2 ^ j + p * (2 ^ j - 1) :=
        Nat.add_le_add_right (Nat.mul_le_mul_right _ (Nat.mul_le_mul_right _ hM)) _
    _ = (scaled p q i j b + 1) * 2 ^ (i + j) * q + p * (2 ^ j - 1) := by rw [Nat.pow_add]; ring

end WixelSdk.Halving
