import Mathlib.Algebra.Order.Group.Unbundled.Abs
import Mathlib.Algebra.Order.Ring.Int
import Mathlib.Tactic.Linarith
import Mathlib.Tactic.Ring

/-!
# Rounding to the nearest whole number

A division by an odd number that adds half the divisor first and then drops the fraction. Below zero,
where dropping the fraction goes up, that is seldom right.
-/

namespace WixelSdk.Rounding

variable {h n n' m : ℤ}

/-- `m` is nearest to `n` over `2 h + 1`. -/
def RoundsTo (h n m : ℤ) : Prop := |(2 * h + 1) * m - n| ≤ h

/-- Half the divisor is added before a division that drops the fraction. -/
def roundDiv (h n : ℤ) : ℤ := (n + h).tdiv (2 * h + 1)

theorem RoundsTo.neg (hm : RoundsTo h n m) : RoundsTo h (-n) (-m) := by
  have hneg : (2 * h + 1) * -m - -n = -((2 * h + 1) * m - n) := by ring
  rwa [RoundsTo, hneg, abs_neg]

theorem RoundsTo.unique {m' : ℤ} (hm : RoundsTo h n m) (hm' : RoundsTo h n m') : m = m' := by
  obtain ⟨hlow, hhigh⟩ := abs_le.mp hm
  obtain ⟨hlow', hhigh'⟩ := abs_le.mp hm'
  have hpos : 0 < 2 * h + 1 := by linarith
  apply le_antisymm
  · refine Int.lt_add_one_iff.mp (lt_of_mul_lt_mul_left ?_ hpos.le)
    linarith [mul_add (2 * h + 1) m' 1]
  · refine Int.lt_add_one_iff.mp (lt_of_mul_lt_mul_left ?_ hpos.le)
    linarith [mul_add (2 * h + 1) m 1]

theorem roundDiv_mono (hh : 0 ≤ h) (hn : n ≤ n') : roundDiv h n ≤ roundDiv h n' :=
  Int.tdiv_le_tdiv (by linarith) (by linarith)

theorem roundsTo_roundDiv (hh : 0 ≤ h) (hn : 0 ≤ n) : RoundsTo h n (roundDiv h n) := by
  have hdiv := Int.mul_ediv_add_emod (n + h) (2 * h + 1)
  have hlow := Int.emod_nonneg (n + h) (show 2 * h + 1 ≠ 0 by omega)
  have hhigh := Int.emod_lt_of_pos (n + h) (show 0 < 2 * h + 1 by omega)
  rw [RoundsTo, roundDiv, Int.tdiv_eq_ediv_of_nonneg (add_nonneg hn hh), abs_le]
  constructor <;> linarith

theorem roundDiv_neg_of_lt (hn : h < n) : roundDiv h (-n) = -((n - h) / (2 * h + 1)) := by
  rw [roundDiv, show -n + h = -(n - h) by ring, Int.neg_tdiv,
    Int.tdiv_eq_ediv_of_nonneg (by linarith)]

theorem roundDiv_neg_of_le (hn : 0 ≤ n) (hle : n ≤ h) : roundDiv h (-n) = 0 := by
  rw [roundDiv, Int.tdiv_eq_ediv_of_nonneg (by linarith)]
  exact Int.ediv_eq_zero_of_lt (by linarith) (by linarith)

/-- Below zero the rounding is right near zero, and where `n` is just half the divisor above a
multiple. -/
theorem roundsTo_roundDiv_neg_iff (hh : 0 ≤ h) (hn : 0 ≤ n) :
    RoundsTo h (-n) (roundDiv h (-n)) ↔ n ≤ h ∨ n % (2 * h + 1) = h := by
  by_cases hle : n ≤ h
  · rw [roundDiv_neg_of_le hn hle]
    refine iff_of_true ?_ (.inl hle)
    rwa [RoundsTo, mul_zero, zero_sub, neg_neg, abs_of_nonneg hn]
  · have hdiv := Int.mul_ediv_add_emod (n - h) (2 * h + 1)
    have hlow := Int.emod_nonneg (n - h) (show 2 * h + 1 ≠ 0 by omega)
    have hmod : n % (2 * h + 1) = h ↔ (n - h) % (2 * h + 1) = 0 := by
      rw [← Int.emod_eq_emod_iff_emod_sub_eq_zero, Int.emod_eq_of_lt hh (by linarith)]
    have hrest : (2 * h + 1) * -((n - h) / (2 * h + 1)) - -n = (n - h) % (2 * h + 1) + h := by
      linarith
    rw [roundDiv_neg_of_lt (not_le.mp hle), RoundsTo, hrest, abs_of_nonneg (by linarith),
      or_iff_right hle, hmod]
    constructor
    · exact fun hrem => by linarith
    · exact fun hrem => by linarith

theorem roundDiv_neg_iff (hh : 0 ≤ h) (hn : 0 ≤ n) :
    roundDiv h (-n) = -roundDiv h n ↔ n ≤ h ∨ n % (2 * h + 1) = h := by
  rw [← roundsTo_roundDiv_neg_iff hh hn]
  constructor
  · intro heq
    rw [heq]
    exact (roundsTo_roundDiv hh hn).neg
  · exact fun hneg => hneg.unique (roundsTo_roundDiv hh hn).neg

end WixelSdk.Rounding
