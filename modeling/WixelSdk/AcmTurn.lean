import WixelSdk.ControlMotion
import WixelSdk.FloatExact
import WixelSdk.Transition
import Mathlib.Data.Rat.Floor

/-!
# The turn timer of wireless_serial_acm

While USB is unplugged, `robotRadioService` takes the bytes off the radio. The byte `t` makes the robot
turn, and the first byte that comes after the end of the turn brakes. The end is kept as an `int` of 16
bits and compared with the low half of `getMs`.
-/

namespace WixelSdk.AcmRobot
open Transition ControlMotion

def turnLeft : Pins := ⟨false, true, false, true⟩
def turnRight : Pins := ⟨true, false, true, false⟩
def goForward : Pins := ⟨true, false, false, true⟩
def goBackward : Pins := ⟨false, true, true, false⟩

inductive Report
  | done
  | time (v : Int16)
  | timer (v : Int16)
  | runUntil (v : Int16)
  deriving DecidableEq, Repr

/-- The variables and the pins, with the strings so far. -/
structure Robot where
  runUntil : Int16
  setPwm : Bool
  pwm : UInt8
  pins : Pins
  sent : List Report
  deriving DecidableEq, Repr

/-- A byte off the radio, and what `getMs` returns in the test for DONE and in `turnTest`. -/
structure Input where
  mybyte : UInt8
  testTime : UInt32
  turnTime : UInt32

/-- `(int) getMs()` -/
def toInt (ms : UInt32) : Int16 := ms.toUInt16.toInt16

section

variable {F : Type*} (o : FloatOps F)

def calculateAngle (x1 y1 rot x2 y2 : Int16) : Int16 :=
  let dX := x2 - x1
  let dY := y1 - y2
  let angle := o.toInt16 (o.mul (o.atan2f (o.ofInt16 dY) (o.ofInt16 dX))
    (o.div (o.ofNat 180) (o.ofScientific 314159 5)))
  if angle ≥ 0 then rot - angle else rot + angle

def rotateLeft (angle : Int16) : Int16 :=
  o.toInt16 (o.add (o.ofScientific 816 1) (o.mul (o.ofScientific 365 2) (o.ofInt16 angle)))

def rotateRight (angle : Int16) : Int16 :=
  o.toInt16 (o.sub (o.ofScientific 602 1) (o.mul (o.ofScientific 412 2) (o.ofInt16 angle)))

def turnDuration (angle : Int16) : Int16 :=
  if angle ≥ 0 then rotateLeft o angle else rotateRight o angle

def testDuration : Int16 := turnDuration o (calculateAngle o 0 0 0 0 1)

namespace Robot

variable (s : Robot)

def sendBackString (r : Report) : Robot := { s with sent := s.sent ++ [r] }

def turn (angle : Int16) : Robot :=
  { s with pins := if angle ≥ 0 then turnLeft else turnRight }.sendBackString
    (.time (turnDuration o angle))

def turnTest (now : UInt32) : Robot :=
  let angle := calculateAngle o 0 0 0 0 1
  let timer := turnDuration o angle
  let s := { s.turn o angle with runUntil := timer + toInt now }
  (s.sendBackString (.timer timer)).sendBackString (.runUntil s.runUntil)

def command (mybyte : UInt8) (now : UInt32) : Robot :=
  if mybyte = 0x70 then { s with setPwm := true }
  else if mybyte = 0x74 then s.turnTest o now
  else if mybyte = 0x77 then { s with pins := goForward }
  else if mybyte = 0x73 then { s with pins := goBackward }
  else if mybyte = 0x61 then { s with pins := turnLeft }
  else if mybyte = 0x64 then { s with pins := turnRight }
  else if mybyte = 0x20 then { s with pins := brake }
  else s

/-- `(int) getMs() > runUntil` -/
def turnOver (now : UInt32) : Bool := toInt now > s.runUntil

/-- The branch 'DONE'. -/
def finishTurn : Robot := { s.sendBackString .done with pins := brake }

/-- An iteration of the loop in `robotRadioService`. -/
def robotRadioService (inp : Input) : Option Robot :=
  some (if s.setPwm then { s with pwm := inp.mybyte, setPwm := false }
    else
      let s := if s.turnOver inp.testTime then s.finishTurn else s
      s.command o inp.mybyte inp.turnTime)

def StartsTurn (inp : Input) : Prop := s.setPwm = false ∧ inp.mybyte = 0x74

instance (inp : Input) : Decidable (s.StartsTurn inp) := inferInstanceAs (Decidable (_ ∧ _))

/-- The byte is tested, and the test takes the branch 'DONE'. -/
def Finishes (inp : Input) : Prop := s.setPwm = false ∧ s.turnOver inp.testTime = true

instance (inp : Input) : Decidable (s.Finishes inp) := inferInstanceAs (Decidable (_ ∧ _))

end Robot

end

/-! ### Times in 16 bits -/

theorem bmod_eq (x : ℤ) : x.bmod (2 ^ 16) = x - 65536 * ((x + 32768) / 65536) := by
  rw [Int.bmod_def]
  split_ifs <;> omega

theorem toInt_toInt (ms : UInt32) : (toInt ms).toInt = (ms.toNat : ℤ).bmod (2 ^ 16) := by
  change (ms.toUInt16.toBitVec).toInt = _
  rw [BitVec.toInt_eq_toNat_bmod]
  change ((ms.toNat % 2 ^ 16 : ℕ) : ℤ).bmod (2 ^ 16) = _
  rw [Int.natCast_mod]
  exact Int.emod_bmod _ _

/-- Between two times less than 32768 ms after a third, 16 bits tell which is later, unless their sign
changes from positive to negative between the two. -/
theorem bmod_lt_iff {t₀ d e : ℤ} (hd : 0 ≤ d ∧ d < 32768) (he : 0 ≤ e ∧ e < 32768) :
    ((t₀ + d).bmod (2 ^ 16) < (t₀ + e).bmod (2 ^ 16) ↔ d < e) ↔
      (t₀ + d + 32768) / 65536 = (t₀ + e + 32768) / 65536 := by
  rw [bmod_eq, bmod_eq]
  constructor
  · intro h
    by_contra hne
    rcases Int.lt_or_lt_of_ne hne with hlt | hlt <;> omega
  · intro h
    rw [h]
    omega

section

variable {F : Type*} {o : FloatOps F} {s t u : Robot} {inp start : Input}

theorem turnTest_runUntil (s : Robot) (now : UInt32) :
    (s.turnTest o now).runUntil = testDuration o + toInt now := rfl

theorem command_runUntil {mybyte : UInt8} (h : mybyte ≠ 0x74) (now : UInt32) :
    (s.command o mybyte now).runUntil = s.runUntil := by
  unfold Robot.command
  rw [if_neg h]
  split_ifs <;> rfl

theorem runUntil_of_startsTurn (h : s.StartsTurn inp) (ht : s.robotRadioService o inp = some t) :
    t.runUntil = testDuration o + toInt inp.turnTime := by
  obtain rfl := Option.some.inj ht
  obtain ⟨hpwm, hbyte⟩ := h
  rw [hpwm, if_neg Bool.false_ne_true, hbyte]
  exact turnTest_runUntil _ _

theorem runUntil_step (h : ¬ s.StartsTurn inp) (ht : s.robotRadioService o inp = some t) :
    t.runUntil = s.runUntil := by
  obtain rfl := Option.some.inj ht
  split_ifs with hpwm hover
  · rfl
  · exact command_runUntil (fun hbyte => h ⟨Bool.eq_false_of_not_eq_true hpwm, hbyte⟩) _
  · exact command_runUntil (fun hbyte => h ⟨Bool.eq_false_of_not_eq_true hpwm, hbyte⟩) _

theorem runUntil_of_run (hr : Run (Robot.robotRadioService o) (fun s inp => ¬ s.StartsTurn inp) s t) :
    t.runUntil = s.runUntil :=
  Run.invariant (I := fun t => t.runUntil = s.runUntil) hr rfl fun _ _ _ hi ha ht =>
    (runUntil_step ha ht).trans hi

theorem toInt_runUntil (now : UInt32) :
    (testDuration o + toInt now).toInt = ((now.toNat : ℤ) + (testDuration o).toInt).bmod (2 ^ 16) := by
  rw [Int16.toInt_add, toInt_toInt, Int.add_bmod_bmod, Int.add_comm]

/-- The time `e` after `t₀`, in 32 bits and then in 16. -/
theorem toInt_later (t₀ t : UInt32) :
    (toInt t).toInt = ((t₀.toNat : ℤ) + (t - t₀).toNat).bmod (2 ^ 16) := by
  have hsub : ((t - t₀).toNat : ℤ) % 2 ^ 16 = ((t.toNat : ℤ) - t₀.toNat) % 2 ^ 16 := by
    rw [UInt32.toNat_sub]
    have hlt := t₀.toNat_lt
    omega
  rw [toInt_toInt, bmod_eq, bmod_eq]
  omega

/-- After a turn test at `t₀` with the duration `d`, and for a byte that is tested less than 32768 ms
later and before the next turn test: the test takes the branch 'DONE' just if more than `d` ms have
passed, if and only if the low 16 bits of the time do not go from 32767 to -32768 between the end of the
turn and the test. -/
theorem turn_finishes_iff (hstart : s.StartsTurn start)
    (ht : s.robotRadioService o start = some t)
    (hr : Run (Robot.robotRadioService o) (fun s inp => ¬ s.StartsTurn inp) t u)
    (hpwm : u.setPwm = false) (hd : 0 ≤ (testDuration o).toInt)
    (hd' : (testDuration o).toInt < 32767)
    (hlate : (inp.testTime - start.turnTime).toNat < 32768) :
    (u.Finishes inp ↔ (testDuration o).toInt < (inp.testTime - start.turnTime).toNat) ↔
      ((start.turnTime.toNat : ℤ) + (testDuration o).toInt + 32768) / 65536 =
        ((start.turnTime.toNat : ℤ) + (inp.testTime - start.turnTime).toNat + 32768) / 65536 := by
  have hrunUntil : u.runUntil = testDuration o + toInt start.turnTime :=
    (runUntil_of_run hr).trans (runUntil_of_startsTurn hstart ht)
  have hfinishes : u.Finishes inp ↔
      ((start.turnTime.toNat : ℤ) + (testDuration o).toInt).bmod (2 ^ 16) <
        ((start.turnTime.toNat : ℤ) + (inp.testTime - start.turnTime).toNat).bmod (2 ^ 16) := by
    rw [Robot.Finishes, and_iff_right hpwm, Robot.turnOver, decide_eq_true_eq, hrunUntil, gt_iff_lt,
      Int16.lt_iff_toInt_lt, toInt_runUntil, toInt_later start.turnTime]
  rw [hfinishes]
  exact bmod_lt_iff ⟨hd, by omega⟩ ⟨Int.natCast_nonneg _, by omega⟩

end

/-- The arc tangent for a target straight above. -/
def straightAbove (_ _ : ℚ) : ℚ := -15707963 / 10 ^ 7

theorem testDuration_straightAbove : testDuration (.exact id straightAbove) = 431 := by
  decide +kernel

/-- The static variables, with the PWM value and the pins that `main` sets. -/
def Robot.powerUp : Robot := ⟨0, false, 255, ⟨false, false, false, false⟩, []⟩

/-- A turn test at 1000 ms, a byte at 1200 ms, and one at 2000 ms, which brakes. -/
theorem turn_finishes_later : ∃ t u : Robot,
    Robot.powerUp.robotRadioService (.exact id straightAbove) ⟨0x74, 1000, 1000⟩ = some t ∧
    Run (Robot.robotRadioService (.exact id straightAbove)) (fun s inp => ¬ s.StartsTurn inp) t u ∧
    u.Finishes ⟨0x20, 2000, 2000⟩ := by
  obtain ⟨t, ht⟩ : ∃ t, Robot.powerUp.robotRadioService (.exact id straightAbove)
      ⟨0x74, 1000, 1000⟩ = some t := ⟨_, rfl⟩
  have hrun : ((Robot.powerUp.robotRadioService (.exact id straightAbove)
      ⟨0x74, 1000, 1000⟩).bind fun t => exec (Robot.robotRadioService (.exact id straightAbove))
        (fun s inp => ¬ s.StartsTurn inp) t [⟨0x77, 1200, 1200⟩]).map Robot.setPwm = some false := by
    decide +kernel
  rw [ht] at hrun
  obtain ⟨u, hr, hpwm⟩ := exists_run_of_exec (s := t) hrun
  have hd : (testDuration (.exact id straightAbove)).toInt = 431 := by
    rw [testDuration_straightAbove]
    rfl
  refine ⟨t, u, ht, hr, ((turn_finishes_iff (by decide) ht hr hpwm ?_ ?_ (by decide)).mpr ?_).mpr ?_⟩
  all_goals rw [hd]; decide

/-- A turn of 431 ms from 32400 ms on is finished by a byte 1 ms later. -/
theorem turn_finishes_early : ∃ t : Robot,
    Robot.powerUp.robotRadioService (.exact id straightAbove) ⟨0x74, 32400, 32400⟩ = some t ∧
    t.setPwm = false ∧ ¬ (t.Finishes ⟨0x77, 32401, 32401⟩ ↔
      (testDuration (.exact id straightAbove)).toInt < ((32401 : UInt32) - 32400).toNat) := by
  refine ⟨_, rfl, by decide +kernel, fun h => ?_⟩
  have hearly := h.mp (by decide +kernel)
  rw [testDuration_straightAbove] at hearly
  exact absurd hearly (by decide)

end WixelSdk.AcmRobot
