import WixelSdk.FloatExact
import WixelSdk.WaypointNav
import Mathlib.Algebra.Order.Archimedean.Real.Basic
import Mathlib.Analysis.Real.Sqrt

/-!
# The arrival test

`distance` takes the differences of the coordinates as `uint16`, so that they wrap for a waypoint to
the left of the robot or above it. With exact square roots and powers it is the distance of the two
points only for a waypoint that is neither.
-/

namespace WixelSdk.WaypointNav
open Packet FloatOps

variable {F : Type*} (o : FloatOps F) (robot goal : QTuple)

def arrived : Bool :=
  o.lt (o.distance robot.readX robot.readY goal.readX goal.readY) (o.ofNat 50)

def squaredDistance : ℤ :=
  ((robot.readX.toNat : ℤ) - goal.readX.toNat) ^ 2 + ((robot.readY.toNat : ℤ) - goal.readY.toNat) ^ 2

/-- The waypoint is neither to the left of the robot nor above it. -/
def RightBelow : Prop := robot.readX ≤ goal.readX ∧ robot.readY ≤ goal.readY

instance : Decidable (RightBelow robot goal) := inferInstanceAs (Decidable (_ ∧ _))

theorem Nav.tagCount_movementHandling {s : Nav} {now : UInt32} (h : ¬ s.Halted now) :
    (s.movementHandling o now).tagCount =
      if arrived o s.tagRobot (s.tagGoal s.tagCount) then s.tagCount + 1 else s.tagCount := by
  unfold Nav.movementHandling arrived
  rw [if_neg h]
  dsimp only
  split_ifs <;> rfl

variable {robot goal}

/-! ### The differences -/

theorem toNat_sub_of_le {a b : UInt16} (h : a ≤ b) :
    ((b - a).toNat : ℤ) = (b.toNat : ℤ) - a.toNat := by
  rw [UInt16.toNat_sub_of_le _ _ h, Nat.cast_sub (UInt16.le_iff_toNat_le.mp h)]

/-- A negative difference of coordinates wraps to a large one. -/
theorem le_toNat_sub {a b : UInt16} (h : ¬ a ≤ b) (ha : a.toNat < 1024) : 50 ≤ (b - a).toNat := by
  rw [UInt16.le_iff_toNat_le] at h
  rw [UInt16.toNat_sub]
  omega

variable (atan2f : ℝ → ℝ → ℝ)

theorem distance_exact (x1 y1 x2 y2 : UInt16) :
    (exact Real.sqrt atan2f).distance x1 y1 x2 y2 =
      √(((x2 - x1).toNat : ℝ) ^ 2 + ((y2 - y1).toNat : ℝ) ^ 2) := by
  have hpow : ∀ a : ℝ, (exact Real.sqrt atan2f).powf a ((exact Real.sqrt atan2f).ofNat 2) = a ^ 2 := by
    intro a
    rw [exact_ofNat]
    change a ^ ⌊((2 : ℕ) : ℝ)⌋ = a ^ 2
    rw [Int.floor_natCast, zpow_natCast]
  unfold distance
  rw [hpow, hpow]
  rfl

/-- The test on whole numbers. -/
theorem arrived_iff : arrived (exact Real.sqrt atan2f) robot goal = true ↔
    (goal.readX - robot.readX).toNat ^ 2 + (goal.readY - robot.readY).toNat ^ 2 < 2500 := by
  unfold arrived
  rw [distance_exact, exact_ofNat]
  change decide (_ < _) = true ↔ _
  rw [decide_eq_true_eq, Real.sqrt_lt' (by norm_num)]
  norm_num
  exact_mod_cast Iff.rfl

theorem arrived_of_rightBelow (h : RightBelow robot goal) :
    arrived (exact Real.sqrt atan2f) robot goal = true ↔ squaredDistance robot goal < 2500 := by
  rw [arrived_iff, ← Int.ofNat_lt, squaredDistance]
  push_cast
  rw [toNat_sub_of_le h.1, toNat_sub_of_le h.2, ← neg_sub, neg_sq,
    ← neg_sub (robot.readY.toNat : ℤ), neg_sq]

theorem not_arrived (h : ¬ RightBelow robot goal) :
    ¬ arrived (exact Real.sqrt atan2f) robot goal = true := by
  rw [arrived_iff, Nat.not_lt]
  rcases not_and_or.mp h with hx | hy
  · have hlarge := le_toNat_sub hx robot.readX_lt
    nlinarith
  · have hlarge := le_toNat_sub hy robot.readY_lt
    nlinarith

theorem not_arrived_of_far (h : 2500 ≤ squaredDistance robot goal) :
    ¬ arrived (exact Real.sqrt atan2f) robot goal = true := by
  by_cases hq : RightBelow robot goal
  · rw [arrived_of_rightBelow atan2f hq]
    exact Int.not_lt.mpr h
  · exact not_arrived atan2f hq

theorem arrived_of_near (h : squaredDistance robot goal < 2500) :
    arrived (exact Real.sqrt atan2f) robot goal = true ↔ RightBelow robot goal := by
  by_cases hq : RightBelow robot goal
  · exact iff_of_true ((arrived_of_rightBelow atan2f hq).mpr h) hq
  · exact iff_of_false (not_arrived atan2f hq) hq

theorem squaredDistance_comm (robot goal : QTuple) :
    squaredDistance goal robot = squaredDistance robot goal := by
  unfold squaredDistance
  ring

/-- Within a distance of 50 the test is right if and only if the waypoint is neither to the left of
the robot nor above it. It gives the same with the two points exchanged if and only if this holds of
both orders, or of neither. -/
theorem arrived_measures_iff (robot goal : QTuple) :
    ((arrived (exact Real.sqrt atan2f) robot goal = true ↔ squaredDistance robot goal < 2500) ↔
      RightBelow robot goal ∨ 2500 ≤ squaredDistance robot goal) ∧
    (arrived (exact Real.sqrt atan2f) robot goal = arrived (exact Real.sqrt atan2f) goal robot ↔
      (RightBelow robot goal ↔ RightBelow goal robot) ∨ 2500 ≤ squaredDistance robot goal) := by
  rcases lt_or_ge (squaredDistance robot goal) 2500 with hnear | hfar
  · have hclose := Int.not_le.mpr hnear
    have hback : squaredDistance goal robot < 2500 := (squaredDistance_comm robot goal).trans_lt hnear
    rw [Bool.eq_iff_iff (b := arrived _ goal robot), arrived_of_near atan2f hnear,
      arrived_of_near atan2f hback, iff_true_right hnear, or_iff_left hclose, or_iff_left hclose]
    exact ⟨Iff.rfl, Iff.rfl⟩
  · have hback : 2500 ≤ squaredDistance goal robot := hfar.trans_eq (squaredDistance_comm goal robot)
    have hno := not_arrived_of_far atan2f hfar
    have hno' := not_arrived_of_far atan2f hback
    refine ⟨iff_of_true (iff_of_false hno (Int.not_lt.mpr hfar)) (Or.inr hfar),
      iff_of_true ?_ (Or.inr hfar)⟩
    rw [Bool.eq_iff_iff]
    exact iff_of_false hno hno'

/-- A packet with the coordinates `x` and 0. -/
def onTop (x : UInt8) : QTuple := ⟨fun k => ([0xFC, 0, 0, x <<< 1, 0] : List UInt8).getD k.val 0⟩

/-- The robot is one step to the right of the waypoint. -/
theorem not_arrived_from_right :
    squaredDistance (onTop 1) (onTop 0) = 1 ∧
    arrived (exact Real.sqrt fun _ _ => 0) (onTop 1) (onTop 0) = false ∧
    arrived (exact Real.sqrt fun _ _ => 0) (onTop 0) (onTop 1) = true := by
  have hright : ¬ RightBelow (onTop 1) (onTop 0) := by decide
  have hleft : RightBelow (onTop 0) (onTop 1) := by decide
  exact ⟨by decide, Bool.eq_false_iff.mpr (not_arrived _ hright),
    (arrived_of_near _ (by decide)).mpr hleft⟩

end WixelSdk.WaypointNav
