import Mathlib.Algebra.Group.Int.Defs
import Mathlib.Algebra.Group.Nat.Defs
import Mathlib.Data.Int.Notation

/-!
# Floating point

The operations of `float` that the robots use, as parameters, and `trig_utils.c` over them.
-/

namespace WixelSdk

structure FloatOps (F : Type*) where
  ofUInt16 : UInt16 → F
  ofInt16 : Int16 → F
  ofInt32 : Int32 → F
  toInt16 : F → Int16
  toInt32 : F → Int32
  /-- `m` times the power of ten with exponent `-e`. -/
  ofScientific : (m e : ℕ) → F
  add : F → F → F
  sub : F → F → F
  mul : F → F → F
  div : F → F → F
  neg : F → F
  lt : F → F → Bool
  le : F → F → Bool
  fabsf : F → F
  powf : F → F → F
  sqrtf : F → F
  atan2f : F → F → F
  /-- What the two loops of `standardizeAngle` end with; see `FoldsAngles`. -/
  standardizeAngle : F → F
  /-- What the recursion of `keepAngleInRange` ends with. -/
  keepAngleInRange : F → F

namespace FloatOps

variable {F : Type*} (o : FloatOps F)

def ofNat (n : ℕ) : F := o.ofScientific n 0

/-- `while (angle < -180.0)`; `none` if it still runs after `fuel` tests. -/
def raiseAngle (o : FloatOps F) : ℕ → F → Option F
  | 0, _ => none
  | fuel + 1, angle =>
    if o.lt angle (o.neg (o.ofNat 180)) then raiseAngle o fuel (o.add angle (o.ofNat 360))
    else some angle

/-- `while (angle > 180.0)` -/
def lowerAngle (o : FloatOps F) : ℕ → F → Option F
  | 0, _ => none
  | fuel + 1, angle =>
    if o.lt (o.ofNat 180) angle then lowerAngle o fuel (o.sub angle (o.ofNat 360))
    else some angle

/-- `keepAngleInRange` of the student's robot; `none` if it needs more than `fuel` calls. -/
def keepAngle (o : FloatOps F) : ℕ → F → Option F
  | 0, _ => none
  | fuel + 1, angle =>
    if o.lt (o.neg (o.ofNat 180)) angle && o.le angle (o.ofNat 180) then some angle
    else if o.le angle (o.neg (o.ofNat 180)) then keepAngle o fuel (o.add angle (o.ofNat 360))
    else keepAngle o fuel (o.sub angle (o.ofNat 360))

/-- The two fields are what the loops and the recursion of the source compute. -/
structure FoldsAngles : Prop where
  standardizeAngle : ∀ angle, ∃ fuel,
    (o.raiseAngle fuel angle).bind (o.lowerAngle fuel) = some (o.standardizeAngle angle)
  keepAngleInRange : ∀ angle, ∃ fuel, o.keepAngle fuel angle = some (o.keepAngleInRange angle)

def distance (x1 y1 x2 y2 : UInt16) : F :=
  o.sqrtf (o.add (o.powf (o.ofUInt16 (x2 - x1)) (o.ofNat 2))
    (o.powf (o.ofUInt16 (y2 - y1)) (o.ofNat 2)))

def calculateAngle (x1 y1 x2 y2 : UInt16) : F :=
  o.standardizeAngle (o.neg (o.mul
    (o.atan2f (o.ofInt16 (y2 - y1).toInt16) (o.ofInt16 (x2 - x1).toInt16))
    (o.div (o.ofNat 180) (o.ofScientific 314159 5))))

def computeTurn (robotAngle pointAngle : F) : F := o.standardizeAngle (o.sub pointAngle robotAngle)

/-- False for a left turn. -/
def turnDirection (currentAngle targetAngle : F) : Bool :=
  o.le (o.computeTurn currentAngle targetAngle) (o.ofNat 0)

/-- Whole numbers in place of `float`. The arc tangent is that of a robot that looks towards a tag on
the X axis. -/
def onAxis : FloatOps ℤ where
  ofUInt16 x := x.toNat
  ofInt16 x := x.toInt
  ofInt32 x := x.toInt
  toInt16 a := .ofInt a
  toInt32 a := .ofInt a
  ofScientific m e := (m : ℤ) / 10 ^ e
  add a b := a + b
  sub a b := a - b
  mul a b := a * b
  div a b := a / b
  neg a := -a
  lt a b := decide (a < b)
  le a b := decide (a ≤ b)
  fabsf a := a.natAbs
  powf a _ := a * a
  sqrtf a := (Nat.sqrt a.toNat : ℕ)
  atan2f _ _ := 0
  standardizeAngle a :=
    if a < -180 then a + 360 * ((179 - a) / 360)
    else if 180 < a then a - 360 * ((a + 179) / 360)
    else a
  keepAngleInRange a := a - 360 * ((a + 179) / 360)

end FloatOps

end WixelSdk
