import Mathlib.Data.Nat.Dist

/-!
# Following a target at a limited rate
-/

namespace WixelSdk.RateLimit

variable (p t v : ℕ)

/-- One step from `p` towards `t`, by at most `v`. -/
def approach : ℕ := if p < t then min (p + v) t else max (p - v) t

variable {p t v}

theorem approach_of_le (h : p ≤ t) :
    p ≤ approach p t v ∧ approach p t v ≤ t ∧ approach p t v ≤ p + v := by
  unfold approach
  split_ifs <;> omega

theorem approach_of_ge (h : t ≤ p) :
    t ≤ approach p t v ∧ approach p t v ≤ p ∧ p ≤ approach p t v + v := by
  unfold approach
  split_ifs <;> omega

theorem dist_approach : Nat.dist (approach p t v) t = Nat.dist p t - v := by
  unfold approach Nat.dist
  split_ifs <;> omega

end WixelSdk.RateLimit
