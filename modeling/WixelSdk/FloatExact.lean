import WixelSdk.FloatOps
import Mathlib.Algebra.Order.Field.Basic
import Mathlib.Algebra.Order.Floor.Ring
import Mathlib.Algebra.Order.Ring.Abs

/-!
# Exact arithmetic

The operations of `float` without rounding, over an ordered field. The square root and the arc tangent
are parameters. The loops that bring an angle into range end, and with the angle that the closed forms
give.
-/

namespace WixelSdk.FloatOps

/-! ### Angles in range -/

section

variable {R : Type*} [CommRing R] [LinearOrder R] {o : FloatOps R} {a b : R} {n fuel : ℕ}

/-- The operations that the loops use are those of the ring. -/
structure Computes (o : FloatOps R) : Prop where
  add : ∀ a b, o.add a b = a + b
  sub : ∀ a b, o.sub a b = a - b
  neg : ∀ a, o.neg a = -a
  lt : ∀ a b, o.lt a b = decide (a < b)
  le : ∀ a b, o.le a b = decide (a ≤ b)
  ofNat : ∀ n, o.ofNat n = n

namespace Computes

theorem raiseAngle_succ (h : o.Computes) (a : R) : o.raiseAngle (fuel + 1) a =
    if a < -180 then o.raiseAngle fuel (a + 360) else some a := by
  rw [FloatOps.raiseAngle, h.lt, h.neg, h.add, h.ofNat, h.ofNat, Nat.cast_ofNat, Nat.cast_ofNat]
  simp only [decide_eq_true_eq]

theorem lowerAngle_succ (h : o.Computes) (a : R) : o.lowerAngle (fuel + 1) a =
    if 180 < a then o.lowerAngle fuel (a - 360) else some a := by
  rw [FloatOps.lowerAngle, h.lt, h.sub, h.ofNat, h.ofNat, Nat.cast_ofNat, Nat.cast_ofNat]
  simp only [decide_eq_true_eq]

theorem keepAngle_succ (h : o.Computes) (a : R) : o.keepAngle (fuel + 1) a =
    if -180 < a ∧ a ≤ 180 then some a
    else if a ≤ -180 then o.keepAngle fuel (a + 360)
    else o.keepAngle fuel (a - 360) := by
  rw [FloatOps.keepAngle, h.lt, h.le, h.le, h.neg, h.add, h.sub, h.ofNat, h.ofNat, Nat.cast_ofNat,
    Nat.cast_ofNat]
  simp only [Bool.and_eq_true, decide_eq_true_eq]

theorem standardizeAngle_within (h : o.Computes) (hlow : -180 ≤ a) (hhigh : a ≤ 180) :
    ∃ fuel, (o.raiseAngle fuel a).bind (o.lowerAngle fuel) = some a := by
  refine ⟨1, ?_⟩
  rw [h.raiseAngle_succ, if_neg (not_lt.mpr hlow), Option.bind_some, h.lowerAngle_succ,
    if_neg (not_lt.mpr hhigh)]

omit [LinearOrder R] in
theorem sub_turns_add (b : R) (n : ℕ) : b - 360 * (n + 1 : ℕ) + 360 = b - 360 * n := by
  push_cast
  rw [mul_add, mul_one, sub_add_eq_sub_sub, sub_add_cancel]

omit [LinearOrder R] in
theorem add_turns_sub (b : R) (n : ℕ) : b + 360 * (n + 1 : ℕ) - 360 = b + 360 * n := by
  push_cast
  rw [mul_add, mul_one, ← add_assoc, add_sub_cancel_right]

variable [IsStrictOrderedRing R]

theorem turns_pos (n : ℕ) : (360 : R) ≤ 360 * (n + 1 : ℕ) := by
  have hone : (1 : R) ≤ (n + 1 : ℕ) := by exact_mod_cast Nat.le_add_left 1 n
  nlinarith

theorem raiseAngle (h : o.Computes) (hlow : -180 ≤ b) (hhigh : b < 180) (hfuel : n < fuel) :
    o.raiseAngle fuel (b - 360 * n) = some b := by
  induction n generalizing fuel with
  | zero =>
      obtain ⟨fuel, rfl⟩ := Nat.exists_eq_succ_of_ne_zero hfuel.ne'
      rw [h.raiseAngle_succ, Nat.cast_zero, mul_zero, sub_zero, if_neg (not_lt.mpr hlow)]
  | succ n ih =>
      obtain ⟨fuel, rfl⟩ := Nat.exists_eq_succ_of_ne_zero (Nat.ne_zero_of_lt hfuel)
      have hturns := turns_pos (R := R) n
      rw [h.raiseAngle_succ, if_pos (by linarith), sub_turns_add]
      exact ih (Nat.lt_of_succ_lt_succ hfuel)

theorem lowerAngle (h : o.Computes) (hlow : -180 < b) (hhigh : b ≤ 180) (hfuel : n < fuel) :
    o.lowerAngle fuel (b + 360 * n) = some b := by
  induction n generalizing fuel with
  | zero =>
      obtain ⟨fuel, rfl⟩ := Nat.exists_eq_succ_of_ne_zero hfuel.ne'
      rw [h.lowerAngle_succ, Nat.cast_zero, mul_zero, add_zero, if_neg (not_lt.mpr hhigh)]
  | succ n ih =>
      obtain ⟨fuel, rfl⟩ := Nat.exists_eq_succ_of_ne_zero (Nat.ne_zero_of_lt hfuel)
      have hturns := turns_pos (R := R) n
      rw [h.lowerAngle_succ, if_pos (by linarith), add_turns_sub]
      exact ih (Nat.lt_of_succ_lt_succ hfuel)

/-- The recursion takes as many turns off or on as the angle is away from its range. -/
theorem keepAngle (h : o.Computes) (hlow : -180 < b) (hhigh : b ≤ 180) (hfuel : n < fuel) :
    o.keepAngle fuel (b + 360 * n) = some b ∧ o.keepAngle fuel (b - 360 * n) = some b := by
  induction n generalizing fuel with
  | zero =>
      obtain ⟨fuel, rfl⟩ := Nat.exists_eq_succ_of_ne_zero hfuel.ne'
      rw [Nat.cast_zero, mul_zero, add_zero, sub_zero, h.keepAngle_succ, if_pos ⟨hlow, hhigh⟩]
      exact ⟨rfl, rfl⟩
  | succ n ih =>
      obtain ⟨fuel, rfl⟩ := Nat.exists_eq_succ_of_ne_zero (Nat.ne_zero_of_lt hfuel)
      have hturns := turns_pos (R := R) n
      obtain ⟨hdown, hup⟩ := ih (Nat.lt_of_succ_lt_succ hfuel)
      constructor
      · rw [h.keepAngle_succ, if_neg fun hc => by linarith [hc.2], if_neg (by linarith),
          add_turns_sub]
        exact hdown
      · rw [h.keepAngle_succ, if_neg fun hc => by linarith [hc.1], if_pos (by linarith),
          sub_turns_add]
        exact hup

theorem standardizeAngle_below (h : o.Computes) (hlow : -180 ≤ b) (hhigh : b < 180) (n : ℕ) :
    ∃ fuel, (o.raiseAngle fuel (b - 360 * n)).bind (o.lowerAngle fuel) = some b := by
  refine ⟨n + 1, ?_⟩
  rw [h.raiseAngle hlow hhigh (Nat.lt_succ_self n), Option.bind_some, h.lowerAngle_succ,
    if_neg (not_lt.mpr hhigh.le)]

theorem standardizeAngle_above (h : o.Computes) (hlow : -180 < b) (hhigh : b ≤ 180) (n : ℕ) :
    ∃ fuel, (o.raiseAngle fuel (b + 360 * n)).bind (o.lowerAngle fuel) = some b := by
  have hpos : (0 : R) ≤ 360 * n := by positivity
  refine ⟨n + 1, ?_⟩
  rw [h.raiseAngle_succ, if_neg (by linarith), Option.bind_some]
  exact h.lowerAngle hlow hhigh (Nat.lt_succ_self n)

/-- An angle that is any whole number of turns away from its range. -/
theorem keepAngle_turns (h : o.Computes) (hlow : -180 < b) (hhigh : b ≤ 180) (z : ℤ) :
    ∃ fuel, o.keepAngle fuel (b + 360 * z) = some b := by
  refine ⟨z.natAbs + 1, ?_⟩
  obtain ⟨hdown, hup⟩ := h.keepAngle hlow hhigh (Nat.lt_succ_self z.natAbs)
  rcases Int.natAbs_eq z with hz | hz
  · rw [hz, Int.cast_natCast]
    exact hdown
  · rw [hz, Int.cast_neg, Int.cast_natCast, mul_neg, ← sub_eq_add_neg, Int.natAbs_neg,
      Int.natAbs_natCast]
    exact hup

end Computes

end

variable {K : Type*} [Field K] [LinearOrder K] [FloorRing K]

/-- A conversion to a whole number drops the fraction. -/
def trunc (a : K) : ℤ := if 0 ≤ a then ⌊a⌋ else ⌈a⌉

/-- The exponent of a power is a whole number. -/
def exact (sqrtf : K → K) (atan2f : K → K → K) : FloatOps K where
  ofUInt16 x := (x.toNat : K)
  ofInt16 x := (x.toInt : K)
  ofInt32 x := (x.toInt : K)
  toInt16 a := .ofInt (trunc a)
  toInt32 a := .ofInt (trunc a)
  ofScientific m e := (m : K) / ((10 : ℕ) : K) ^ e
  add a b := a + b
  sub a b := a - b
  mul a b := a * b
  div a b := a / b
  neg a := -a
  lt a b := decide (a < b)
  le a b := decide (a ≤ b)
  fabsf a := |a|
  powf a b := a ^ ⌊b⌋
  sqrtf := sqrtf
  atan2f := atan2f
  standardizeAngle a :=
    let half : K := (180 : ℕ)
    let full : K := (360 : ℕ)
    if a < -half then a + full * (⌈(-half - a) / full⌉ : K)
    else if half < a then a - full * (⌈(a - half) / full⌉ : K)
    else a
  keepAngleInRange a :=
    let half : K := (180 : ℕ)
    let full : K := (360 : ℕ)
    a - full * (⌈(a - half) / full⌉ : K)

section

variable {sqrtf : K → K} {atan2f : K → K → K}

@[simp] theorem exact_ofNat (n : ℕ) : (exact sqrtf atan2f).ofNat n = (n : K) := by
  change (n : K) / 10 ^ 0 = n
  rw [pow_zero, div_one]

end

theorem computes_exact (sqrtf : K → K) (atan2f : K → K → K) : (exact sqrtf atan2f).Computes :=
  ⟨fun _ _ => rfl, fun _ _ => rfl, fun _ => rfl, fun _ _ => rfl, fun _ _ => rfl, exact_ofNat⟩

variable [IsStrictOrderedRing K] {a : K} {m : ℤ}

/-- The number of turns by which an angle is above its range. -/
theorem turns_bounds (a : K) :
    -180 < a - 360 * (⌈(a - 180) / 360⌉ : K) ∧ a - 360 * (⌈(a - 180) / 360⌉ : K) ≤ 180 := by
  have hle := Int.le_ceil ((a - 180) / 360)
  have hlt := Int.ceil_lt_add_one ((a - 180) / 360)
  rw [div_le_iff₀ (by norm_num)] at hle
  rw [← sub_lt_iff_lt_add, lt_div_iff₀ (by norm_num)] at hlt
  constructor <;> linarith

theorem foldsAngles_exact (sqrtf : K → K) (atan2f : K → K → K) :
    (exact sqrtf atan2f).FoldsAngles where
  standardizeAngle a := by
    have h := computes_exact sqrtf atan2f
    change ∃ fuel, _ = some (if a < -180 then a + 360 * (⌈(-180 - a) / 360⌉ : K)
      else if 180 < a then a - 360 * (⌈(a - 180) / 360⌉ : K) else a)
    split_ifs with hlow hhigh
    · obtain ⟨hmin, hmax⟩ := turns_bounds (-a)
      have hturns : (-180 - a) / 360 = (-a - 180) / 360 := by rw [sub_eq_neg_add, ← sub_eq_add_neg]
      have hpos : 0 ≤ ⌈(-a - 180) / 360⌉ := Int.ceil_nonneg (div_nonneg (by linarith) (by norm_num))
      obtain ⟨n, hn⟩ := Int.eq_ofNat_of_zero_le hpos
      rw [hn, Int.cast_natCast] at hmin hmax
      have hends := h.standardizeAngle_below (b := a + 360 * n) (by linarith) (by linarith) n
      rw [add_sub_cancel_right] at hends
      rw [hturns, hn, Int.cast_natCast]
      exact hends
    · obtain ⟨hmin, hmax⟩ := turns_bounds a
      have hpos : 0 ≤ ⌈(a - 180) / 360⌉ := Int.ceil_nonneg (div_nonneg (by linarith) (by norm_num))
      obtain ⟨n, hn⟩ := Int.eq_ofNat_of_zero_le hpos
      rw [hn, Int.cast_natCast] at hmin hmax
      have hends := h.standardizeAngle_above hmin hmax n
      rw [sub_add_cancel] at hends
      rw [hn, Int.cast_natCast]
      exact hends
    · exact h.standardizeAngle_within (not_lt.mp hlow) (not_lt.mp hhigh)
  keepAngleInRange a := by
    obtain ⟨hlow, hhigh⟩ := turns_bounds a
    have hkeep := (computes_exact sqrtf atan2f).keepAngle_turns hlow hhigh ⌈(a - 180) / 360⌉
    rw [sub_add_cancel] at hkeep
    exact hkeep

theorem trunc_le (h : a ≤ m) : trunc a ≤ m := by
  unfold trunc
  split_ifs with ha
  · exact Int.cast_le.mp ((Int.floor_le a).trans h)
  · exact Int.ceil_le.mpr h

theorem le_trunc (h : (m : K) ≤ a) : m ≤ trunc a := by
  unfold trunc
  split_ifs with ha
  · exact Int.le_floor.mpr h
  · exact Int.cast_le.mp (h.trans (Int.le_ceil a))

theorem abs_trunc_sub_le (a : K) : |(trunc a : K) - a| ≤ 1 := by
  unfold trunc
  split_ifs with ha
  · rw [abs_sub_comm, abs_of_nonneg (sub_nonneg.mpr (Int.floor_le a))]
    exact sub_le_iff_le_add'.mpr (Int.lt_floor_add_one a).le
  · rw [abs_of_nonneg (sub_nonneg.mpr (Int.le_ceil a))]
    exact sub_le_iff_le_add'.mpr (Int.ceil_lt_add_one a).le

/-! ### Whole numbers -/

theorem computes_onAxis : onAxis.Computes :=
  ⟨fun _ _ => rfl, fun _ _ => rfl, fun _ => rfl, fun _ _ => rfl, fun _ _ => rfl,
    fun n => Int.ediv_one n⟩

theorem foldsAngles_onAxis : onAxis.FoldsAngles where
  standardizeAngle a := by
    have h := computes_onAxis
    change ∃ fuel, _ = some (if a < -180 then a + 360 * ((179 - a) / 360)
      else if 180 < a then a - 360 * ((a + 179) / 360) else a)
    split_ifs with hlow hhigh
    · obtain ⟨n, hn⟩ := Int.eq_ofNat_of_zero_le (show 0 ≤ (179 - a) / 360 by omega)
      have hends := h.standardizeAngle_below (b := a + 360 * n) (by omega) (by omega) n
      rw [add_sub_cancel_right] at hends
      rw [hn]
      exact hends
    · obtain ⟨n, hn⟩ := Int.eq_ofNat_of_zero_le (show 0 ≤ (a + 179) / 360 by omega)
      have hends := h.standardizeAngle_above (b := a - 360 * n) (by omega) (by omega) n
      rw [sub_add_cancel] at hends
      rw [hn]
      exact hends
    · exact h.standardizeAngle_within (not_lt.mp hlow) (not_lt.mp hhigh)
  keepAngleInRange a := by
    have hkeep := computes_onAxis.keepAngle_turns (b := a - 360 * ((a + 179) / 360)) (by omega)
      (by omega) ((a + 179) / 360)
    rw [Int.cast_id, sub_add_cancel] at hkeep
    exact hkeep

end WixelSdk.FloatOps
