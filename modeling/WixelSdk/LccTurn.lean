import WixelSdk.FloatExact
import WixelSdk.LccRobot
import Mathlib.Algebra.Order.Ring.Abs
import Mathlib.Data.Rat.Floor
import Mathlib.Tactic.Linarith

/-!
# The turn of the lcc robot

`GetDiffOrientation` folds an angle above 180 degrees without turning its sign around, and `RotateCar`
takes the other direction for angles from 180 degrees on. Angles are elements of an ordered field, and
the arc tangent gives the exact bearing of the target.
-/

namespace WixelSdk.LccRobot
open ControlMotion FloatOps

/-! ### RotateCar -/

def durationOf (n : ℤ) : UInt16 :=
  if n < 30 then Move.dur0 else if n < 50 then Move.dur1 else Move.dur2

def shortAngle (n : ℤ) : ℤ := if 180 < |n| then 360 - |n| else |n|

def directionOf (n : ℤ) : UInt16 := if 0 ≤ n ↔ |n| < 180 then Move.rght else Move.left

section

variable {degree : Int16}

theorem toNat_toUInt16 (h : 0 ≤ degree.toInt) : (degree.toUInt16.toNat : ℤ) = degree.toInt := by
  rw [Int16.toNat_toUInt16_of_le (Int16.le_iff_toInt_le.mpr h)]
  exact Int.toNat_of_nonneg h

theorem toNat_abs (h : |degree.toInt| ≤ 360) :
    ((if degree > 0 then degree else -degree).toUInt16.toNat : ℤ) = |degree.toInt| := by
  have hle := abs_le.mp h
  split_ifs with hpos
  · have hlt : 0 < degree.toInt := Int16.lt_iff_toInt_lt.mp hpos
    rw [toNat_toUInt16 hlt.le, abs_of_pos hlt]
  · have hneg : degree.toInt ≤ 0 :=
      Int.not_lt.mp fun hlt => hpos (Int16.lt_iff_toInt_lt.mpr hlt)
    have hopposite : (-degree).toInt = -degree.toInt := by
      rw [Int16.toInt_neg, Int.bmod_eq_of_le] <;> omega
    rw [abs_of_nonpos hneg, toNat_toUInt16 (by omega), hopposite]

theorem lt_iff_of_toNat {x n : UInt16} {k : ℤ} (h : (x.toNat : ℤ) = k) : x < n ↔ k < n.toNat := by
  rw [UInt16.lt_iff_toNat_lt, ← h, Int.ofNat_lt]

theorem toNat_short {absDeg : UInt16} (h : |degree.toInt| ≤ 360)
    (habs : (absDeg.toNat : ℤ) = |degree.toInt|) :
    ((if absDeg > 180 then 360 - absDeg else absDeg).toNat : ℤ) = shortAngle degree.toInt := by
  have hlarge : absDeg > 180 ↔ 180 < |degree.toInt| := by
    rw [gt_iff_lt, UInt16.lt_iff_toNat_lt, ← habs]
    exact Int.ofNat_lt.symm
  unfold shortAngle
  simp only [hlarge]
  split_ifs
  · have hle : absDeg.toNat ≤ (360 : UInt16).toNat := by
      change _ ≤ 360
      omega
    rw [UInt16.toNat_sub_of_le _ _ (UInt16.le_iff_toNat_le.mpr hle), Nat.cast_sub hle, habs]
    rfl
  · exact habs

theorem direction_eq {absDeg : UInt16} (habs : (absDeg.toNat : ℤ) = |degree.toInt|) :
    (if degree < 0 then if absDeg < 180 then Move.left else Move.rght
      else if absDeg < 180 then Move.rght else Move.left) = directionOf degree.toInt := by
  have hneg : degree < 0 ↔ ¬ 0 ≤ degree.toInt := Int16.lt_iff_toInt_lt.trans Int.not_le.symm
  have hsmall : absDeg < 180 ↔ |degree.toInt| < 180 := lt_iff_of_toNat habs
  unfold directionOf
  simp only [hneg, hsmall]
  split_ifs <;> first | rfl | tauto

theorem rotateCommand_eq (h : |degree.toInt| ≤ 360) :
    rotateCommand degree =
      if shortAngle degree.toInt < 10 then none
      else some (durationOf (shortAngle degree.toInt) ||| directionOf degree.toInt) := by
  have habs := toNat_abs h
  unfold rotateCommand
  dsimp only
  generalize (if degree > 0 then degree else -degree).toUInt16 = absDeg at *
  have hshort := toNat_short h habs
  rw [direction_eq habs]
  generalize (if absDeg > 180 then 360 - absDeg else absDeg) = short at *
  have hnone : short < 10 ↔ shortAngle degree.toInt < 10 := lt_iff_of_toNat hshort
  have hdur0 : short < 30 ↔ shortAngle degree.toInt < 30 := lt_iff_of_toNat hshort
  have hdur1 : short < 50 ↔ shortAngle degree.toInt < 50 := lt_iff_of_toNat hshort
  simp only [hnone, hdur0, hdur1, durationOf]
  split_ifs <;> rfl

end

/-! ### GetDiffOrientation -/

variable {K : Type*} [Field K] [LinearOrder K] [FloorRing K]

/-- With the factor of the source, the arc tangent gives the bearing `b` of the target, as an angle
above -180 and up to 180. -/
def Robot.Bears (atan2f : K → K → K) (s : Robot) (tgtIdx : ℕ) (b : K) : Prop :=
  atan2f ((s.targets tgtIdx).y - s.myrobot.y).toInt ((s.targets tgtIdx).x - s.myrobot.x).toInt * 180 /
    (31415926 / 10 ^ 7) = if b ≤ 180 then b else b - 360

/-- What `GetDiffOrientation` makes of the difference of the two angles. -/
def fold (e : K) : K := if 180 < e then 360 - e else e

variable [IsStrictOrderedRing K] {sqrtf : K → K} {atan2f : K → K → K} {s : Robot} {tgtIdx : ℕ} {b : K}

theorem getDiffOrientation_exact (hb : s.Bears atan2f tgtIdx b) (h₀ : 0 ≤ b) (h₁ : b < 360) :
    s.getDiffOrientation (exact sqrtf atan2f) tgtIdx =
      .ofInt (trunc (fold ((s.myrobot.r.toInt : K) - b))) := by
  unfold Robot.Bears at hb
  unfold Robot.getDiffOrientation
  simp only [exact_ofNat]
  dsimp only [exact]
  simp only [decide_eq_true_eq, Nat.cast_ofNat, Nat.cast_zero, hb]
  have hbearing : (if (if b ≤ 180 then b else b - 360) < 0
      then (if b ≤ 180 then b else b - 360) + 360 else if b ≤ 180 then b else b - 360) = b := by
    split_ifs <;> linarith
  rw [hbearing]
  rfl

/-- A command within a degree of the angle `d`: to the right for a positive angle, to the left for a
negative one, and none for a small one. -/
structure TurnsShortWay (cmd : Option UInt16) (d : K) : Prop where
  right : (11 ≤ |d| ∧ |d| ≤ 179) → 0 < d →
    ∃ n : ℤ, |(n : K) - (|d|)| ≤ 1 ∧ cmd = some (durationOf n ||| Move.rght)
  left : (11 ≤ |d| ∧ |d| ≤ 179) → d < 0 →
    ∃ n : ℤ, |(n : K) - (|d|)| ≤ 1 ∧ cmd = some (durationOf n ||| Move.left)
  aligned : |d| < 9 → cmd = none

section

variable {d : K} {n : ℤ}

theorem rotateCommand_ofInt (h : |n| ≤ 360) : rotateCommand (.ofInt n) =
    if shortAngle n < 10 then none else some (durationOf (shortAngle n) ||| directionOf n) := by
  have hle := abs_le.mp h
  have htoInt : (Int16.ofInt n).toInt = n := Int16.toInt_ofInt_of_le (by omega) (by omega)
  have heq := @rotateCommand_eq (.ofInt n) (by rwa [htoInt])
  rwa [htoInt] at heq

theorem shortAngle_eq (h : |n| ≤ 180) : shortAngle n = |n| := if_neg (Int.not_lt.mpr h)

/-- An angle that is close to `d` as `RotateCar` takes it, in the right direction. -/
theorem turnsShortWay_of_close (h : |n| ≤ 360)
    (hclose : |d| ≤ 179 → |(shortAngle n : K) - (|d|)| ≤ 1)
    (hright : (11 ≤ |d| ∧ |d| ≤ 179) → 0 < d → directionOf n = Move.rght)
    (hleft : (11 ≤ |d| ∧ |d| ≤ 179) → d < 0 → directionOf n = Move.left) :
    TurnsShortWay (rotateCommand (.ofInt n)) d := by
  rw [rotateCommand_ofInt h]
  have hturns : (11 ≤ |d| ∧ |d| ≤ 179) → ¬ shortAngle n < 10 := fun hd hlt => by
    have hle : (shortAngle n : K) ≤ 9 := by exact_mod_cast Int.lt_add_one_iff.mp hlt
    linarith [(abs_le.mp (hclose hd.2)).1, hd.1]
  refine ⟨fun hd hpos => ?_, fun hd hneg => ?_, fun hd => if_pos ?_⟩
  · rw [if_neg (hturns hd), hright hd hpos]
    exact ⟨_, hclose hd.2, rfl⟩
  · rw [if_neg (hturns hd), hleft hd hneg]
    exact ⟨_, hclose hd.2, rfl⟩
  · have hlt : (shortAngle n : K) < 10 := by
      linarith [(abs_le.mp (hclose (by linarith))).2]
    exact_mod_cast hlt

theorem turnsShortWay_of_small (hd : -180 < d) (hd' : d ≤ 180) :
    TurnsShortWay (rotateCommand (.ofInt (trunc d))) d := by
  have hle : trunc d ≤ 180 := trunc_le (by exact_mod_cast hd')
  have hge : -180 ≤ trunc d := le_trunc (by push_cast; exact hd.le)
  have habs : |trunc d| ≤ 180 := abs_le.mpr ⟨hge, hle⟩
  have hshort := shortAngle_eq habs
  refine turnsShortWay_of_close (habs.trans (by decide)) (fun _ => ?_) (fun hr hpos => ?_)
    fun hr hneg => ?_
  · rw [hshort, Int.cast_abs]
    exact (abs_abs_sub_abs_le _ _).trans (abs_trunc_sub_le d)
  · rw [abs_of_pos hpos] at hr
    have hnonneg : 0 ≤ trunc d := le_trunc (by exact_mod_cast hpos.le)
    have hlt : trunc d ≤ 179 := trunc_le (by exact_mod_cast hr.2)
    exact if_pos (iff_of_true hnonneg (by rw [abs_of_nonneg hnonneg]; omega))
  · rw [abs_of_neg hneg] at hr
    have hlow : -179 ≤ trunc d := le_trunc (by push_cast; linarith)
    have hhigh : trunc d ≤ -11 := trunc_le (by push_cast; linarith)
    exact if_neg fun hiff => absurd (hiff.mpr (abs_lt.mpr ⟨by omega, by omega⟩)) (by omega)

/-- From -180 degrees on, `RotateCar` takes the other direction. -/
theorem turnsShortWay_of_low {e : K} (he : e ≤ -180) (he' : -360 < e) :
    TurnsShortWay (rotateCommand (.ofInt (trunc e))) (e + 360) := by
  have hle : trunc e ≤ -180 := trunc_le (by push_cast; exact he)
  have hge : -360 ≤ trunc e := le_trunc (by push_cast; exact he'.le)
  have hpos : 0 < e + 360 := by linarith
  have hdir : directionOf (trunc e) = Move.rght := by
    refine if_pos (iff_of_false (by omega) ?_)
    rw [abs_of_nonpos (by omega)]
    omega
  refine turnsShortWay_of_close (abs_le.mpr ⟨hge, by omega⟩) (fun hd => ?_) (fun _ _ => hdir)
    fun _ hneg => absurd hneg (not_lt.mpr hpos.le)
  rw [abs_of_pos hpos] at hd ⊢
  have hlow : trunc e ≤ -181 := trunc_le (by push_cast; linarith)
  have hshort : shortAngle (trunc e) = trunc e + 360 := by
    have habs : |trunc e| = -trunc e := abs_of_nonpos (by omega)
    rw [shortAngle, habs, if_pos (by omega)]
    omega
  rw [hshort, Int.cast_add, Int.cast_ofNat, add_sub_add_right_eq_sub]
  exact abs_trunc_sub_le e

/-- Above 180 degrees the fold gives the angle the wrong sign. -/
theorem rotateCommand_of_high {e : K} (he : 181 ≤ e) (he' : e ≤ 349) :
    ∃ n, rotateCommand (.ofInt (trunc (360 - e))) = some (durationOf n ||| Move.rght) := by
  have hlow : 11 ≤ trunc (360 - e) := le_trunc (by push_cast; linarith)
  have hhigh : trunc (360 - e) ≤ 179 := trunc_le (by push_cast; linarith)
  have habs : |trunc (360 - e)| = trunc (360 - e) := abs_of_nonneg (by omega)
  have hshort := shortAngle_eq (n := trunc (360 - e)) (by rw [habs]; omega)
  have hdir : directionOf (trunc (360 - e)) = Move.rght :=
    if_pos (iff_of_true (by omega) (by rw [habs]; omega))
  rw [rotateCommand_ofInt (by rw [habs]; omega), hshort, habs, if_neg (by omega), hdir]
  exact ⟨_, rfl⟩

theorem right_ne_left (m n : ℤ) : durationOf m ||| Move.rght ≠ durationOf n ||| Move.left := by
  unfold durationOf
  split_ifs <;> decide

theorem not_turnsShortWay_of_high {e : K} (he : 181 ≤ e) (he' : e ≤ 349) :
    ¬ TurnsShortWay (rotateCommand (.ofInt (trunc (360 - e)))) (e - 360) := by
  intro h
  have hneg : e - 360 < 0 := by linarith
  have habs : |e - 360| = 360 - e := by rw [abs_of_neg hneg, neg_sub]
  obtain ⟨m, hm⟩ := rotateCommand_of_high he he'
  obtain ⟨n, -, hn⟩ := h.left (by rw [habs]; constructor <;> linarith) hneg
  exact right_ne_left m n (Option.some.inj (hm.symm.trans hn))

/-- The angles above 180 degrees for which no turn is asked, or any. -/
theorem turnsShortWay_of_high {e : K} (he' : e < 360) (h : ¬ (181 ≤ e ∧ e ≤ 349)) :
    TurnsShortWay (rotateCommand (.ofInt (trunc (360 - e)))) (e - 360) := by
  have hneg : e - 360 < 0 := by linarith
  have habs : |e - 360| = 360 - e := by rw [abs_of_neg hneg, neg_sub]
  refine ⟨fun _ hpos => absurd hpos (not_lt.mpr hneg.le), fun hd _ => ?_, fun hd => ?_⟩
  · rw [habs] at hd
    exact absurd ⟨by linarith [hd.2], by linarith [hd.1]⟩ h
  · rw [habs] at hd
    have hlow : 0 ≤ trunc (360 - e) := le_trunc (by push_cast; linarith)
    have hhigh : trunc (360 - e) ≤ 9 := trunc_le (by push_cast; linarith)
    have hmag : |trunc (360 - e)| = trunc (360 - e) := abs_of_nonneg hlow
    have hshort := shortAngle_eq (n := trunc (360 - e)) (by rw [hmag]; omega)
    rw [rotateCommand_ofInt (by rw [hmag]; omega), hshort, hmag, if_pos (by omega)]

/-- The representatives of a difference of two angles. -/
theorem difference_cases {e : K} {k : ℤ} (he : -360 < e) (he' : e < 360) (hd : -180 < d)
    (hd' : d ≤ 180) (hk : e = d + 360 * k) :
    180 < e ∧ d = e - 360 ∨ (-180 < e ∧ e ≤ 180) ∧ d = e ∨ e ≤ -180 ∧ d = e + 360 := by
  have hlow : -2 < k := by
    have hcast : (-2 : K) < k := by linarith
    exact_mod_cast hcast
  have hhigh : k < 2 := by
    have hcast : (k : K) < 2 := by linarith
    exact_mod_cast hcast
  obtain rfl | rfl | rfl : k = 1 ∨ k = 0 ∨ k = -1 := by omega
  · left
    push_cast at hk
    constructor <;> linarith
  · right; left
    push_cast at hk
    refine ⟨⟨?_, ?_⟩, ?_⟩ <;> linarith
  · right; right
    push_cast at hk
    constructor <;> linarith

end

/-- For every orientation and every bearing, with `d` their difference as an angle above -180 and up to
180: the robot turns the short way if and only if the orientation is not 181 to 349 degrees above the
bearing. -/
theorem turnsShortWay_iff {d : K} (hr : 0 ≤ s.myrobot.r.toInt) (hr' : s.myrobot.r.toInt < 360)
    (hb : s.Bears atan2f tgtIdx b) (h₀ : 0 ≤ b) (h₁ : b < 360) (hd : -180 < d) (hd' : d ≤ 180)
    (hmod : ∃ k : ℤ, (s.myrobot.r.toInt : K) - b = d + 360 * k) :
    TurnsShortWay (rotateCommand (s.getDiffOrientation (exact sqrtf atan2f) tgtIdx)) d ↔
      ¬ (181 ≤ (s.myrobot.r.toInt : K) - b ∧ (s.myrobot.r.toInt : K) - b ≤ 349) := by
  obtain ⟨k, hk⟩ := hmod
  have hlow : (0 : K) ≤ s.myrobot.r.toInt := by exact_mod_cast hr
  have hhigh : (s.myrobot.r.toInt : K) < 360 := by exact_mod_cast hr'
  rw [getDiffOrientation_exact hb h₀ h₁]
  generalize (s.myrobot.r.toInt : K) = r at *
  rcases difference_cases (by linarith) (by linarith) hd hd' hk with
    ⟨he, rfl⟩ | ⟨⟨he, he'⟩, rfl⟩ | ⟨he, rfl⟩
  · rw [fold, if_pos he]
    constructor
    · exact fun h hbad => not_turnsShortWay_of_high hbad.1 hbad.2 h
    · exact turnsShortWay_of_high (by linarith)
  · rw [fold, if_neg (not_lt.mpr he')]
    exact iff_of_true (turnsShortWay_of_small he he') fun hbad => by linarith [hbad.1]
  · rw [fold, if_neg (by linarith)]
    exact iff_of_true (turnsShortWay_of_low he (by linarith)) fun hbad => by linarith [hbad.1]

/-- The robot at the origin with orientation `r`, and target 0 at (0, 1). -/
def Robot.facing (r : Int16) : Robot :=
  { Robot.powerUp with
    myrobot := { Robot.powerUp.myrobot with state := .exist, r := r }
    targets := Function.update Robot.powerUp.targets 0 ⟨0, 1, 0, .exist, 0⟩ }

/-- The arc tangent for the points on the two axes, with half the factor of the source for a right
angle. -/
def onAxes (y x : ℚ) : ℚ :=
  if 0 < y then 15707963 / 10 ^ 7
  else if y < 0 then -15707963 / 10 ^ 7
  else if x < 0 then 31415926 / 10 ^ 7
  else 0

theorem bears_onAxes (r : Int16) : (Robot.facing r).Bears onAxes 0 90 := by
  have htarget : (Robot.facing r).targets 0 = ⟨0, 1, 0, .exist, 0⟩ := by simp [Robot.facing]
  have hx : (Robot.facing r).myrobot.x = 0 := rfl
  have hy : (Robot.facing r).myrobot.y = 0 := rfl
  have hup : ((1 : Int16) - 0).toInt = 1 := by decide
  have hacross : ((0 : Int16) - 0).toInt = 0 := by decide
  unfold Robot.Bears onAxes
  rw [htarget, hx, hy]
  dsimp only
  rw [hup, hacross]
  norm_num

theorem facing_toInt (r : Int16) : (Robot.facing r).myrobot.r.toInt = r.toInt := rfl

/-- From 120 degrees it turns to the right. -/
theorem turnsShortWay_from_120 : TurnsShortWay
    (rotateCommand ((Robot.facing 120).getDiffOrientation (exact id onAxes) 0)) (30 : ℚ) := by
  have hr : (((Robot.facing 120).myrobot.r.toInt : ℤ) : ℚ) = 120 := by
    rw [facing_toInt, show (120 : Int16).toInt = 120 from rfl, Int.cast_ofNat]
  refine (turnsShortWay_iff (by decide) (by decide) (bears_onAxes 120) (by norm_num) (by norm_num)
    (by norm_num) (by norm_num) ⟨0, ?_⟩).mpr ?_
  · rw [hr]
    norm_num
  · rw [hr]
    norm_num

/-- From 350 degrees the short way is 100 degrees to the left, and it turns to the right. -/
theorem turns_long_way : ((Robot.facing 350).myrobot.r.toInt : ℚ) - 90 = -100 + 360 * (1 : ℤ) ∧
    (∃ n, rotateCommand ((Robot.facing 350).getDiffOrientation (exact id onAxes) 0) =
      some (durationOf n ||| Move.rght)) ∧
    ¬ TurnsShortWay (rotateCommand ((Robot.facing 350).getDiffOrientation (exact id onAxes) 0))
      (-100 : ℚ) := by
  have hr : (((Robot.facing 350).myrobot.r.toInt : ℤ) : ℚ) = 350 := by
    rw [facing_toInt, show (350 : Int16).toInt = 350 from rfl, Int.cast_ofNat]
  rw [getDiffOrientation_exact (bears_onAxes 350) (by norm_num) (by norm_num), hr,
    show fold (350 - 90 : ℚ) = 360 - 260 by norm_num [fold]]
  refine ⟨by norm_num, rotateCommand_of_high (by norm_num) (by norm_num), ?_⟩
  have hno := not_turnsShortWay_of_high (e := (260 : ℚ)) (by norm_num) (by norm_num)
  rwa [show (260 - 360 : ℚ) = -100 by norm_num] at hno

end WixelSdk.LccRobot
