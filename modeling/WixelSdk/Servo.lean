import WixelSdk.RateLimit
import WixelSdk.Transition
import Mathlib.Data.List.FinRange
import Mathlib.Logic.Function.Basic
import Mathlib.Data.List.Nodup

/-!
# The servo library

The variables and functions of `servo.c`, with the registers that its interrupt writes. The functions
of the main loop keep the Timer 1 interrupt off while they run, so that they and the interrupt take
place one after the other.
-/

namespace WixelSdk.Servo
open Transition

abbrev maxServos : ℕ := 6

instance : NeZero maxServos := ⟨by decide⟩

structure ServoData where
  target : UInt16
  position : UInt16
  positionReg : UInt16
  speed : UInt16
  deriving DecidableEq, Repr

/-- The latches, directions and selections of the two ports. -/
structure Ports where
  p0 : UInt8
  p1 : UInt8
  p0dir : UInt8
  p1dir : UInt8
  p0sel : UInt8
  p1sel : UInt8
  deriving DecidableEq, Repr

structure Servos extends Ports where
  servosStartedFlag : Bool
  servosMovingFlag : Bool
  servoCounter : UInt8
  servoAssignment : Fin maxServos → Fin maxServos
  servoData : Fin maxServos → ServoData
  servoPinsOnPort0 : UInt8
  servoPinsOnPort1 : UInt8
  t1cfg : Bool
  t1cc : UInt16 × UInt16 × UInt16

/-- The position after one servo period, and whether the servo is still moving. -/
def ServoData.advance (d : ServoData) : UInt16 × Bool :=
  if d.speed ≠ 0 ∧ d.position ≠ 0 then
    if d.target > d.position then
      if d.target - d.position < d.speed then (d.target, false)
      else (d.position + d.speed, true)
    else if d.position - d.target < d.speed then (d.target, false)
    else (d.position - d.speed, true)
  else (d.target, false)

/-- `~pos + 1` -/
def ServoData.setPosition (d : ServoData) (pos : UInt16) : ServoData :=
  { d with position := pos, positionReg := ~~~pos + 1 }

def ServoData.update (d : ServoData) : ServoData := d.setPosition d.advance.1

namespace Servos

variable (s : Servos)

def updateServo (i : Fin maxServos) : Servos :=
  { s with
    servoData := Function.update s.servoData i (s.servoData i).update
    servosMovingFlag := s.servosMovingFlag || (s.servoData i).advance.2 }

def updateServos : Servos := (List.finRange maxServos).foldl updateServo s

def isrT1 : Servos :=
  let next := { s with servoCounter := s.servoCounter + 1 }
  match s.servoCounter.toNat with
  | 0 => { next with
      t1cfg := false
      p0sel := s.p0sel ||| s.servoPinsOnPort0
      t1cc := ((s.servoData 0).positionReg, (s.servoData 1).positionReg,
        (s.servoData 2).positionReg) }
  | 3 => { next with
      t1cfg := true
      p1sel := s.p1sel ||| s.servoPinsOnPort1
      t1cc := ((s.servoData 3).positionReg, (s.servoData 4).positionReg,
        (s.servoData 5).positionReg) }
  | 1 | 4 => { next with t1cc := (0xFFFF, 0xFFFF, 0xFFFF) }
  | 2 => { next with p0sel := s.p0sel &&& ~~~s.servoPinsOnPort0 }
  | 5 => { next with p1sel := s.p1sel &&& ~~~s.servoPinsOnPort1 }
  | 6 => updateServos { next with servoCounter := 0, servosMovingFlag := false }
  | _ => next

def pinToInternalChannelNumber (pin : UInt8) : Fin maxServos :=
  match pin.toNat with
  | 2 => 0
  | 3 => 1
  | 4 => 2
  | 12 => 3
  | 11 => 4
  | 10 => 5
  | _ => 0

/-- The pin of a channel, as a bit of `servoPinsOnPort0` and one of `servoPinsOnPort1`. -/
def pinMasks (c : Fin maxServos) : UInt8 × UInt8 :=
  match c.val with
  | 0 => ((1 : UInt8) <<< 2, 0)
  | 1 => ((1 : UInt8) <<< 3, 0)
  | 2 => ((1 : UInt8) <<< 4, 0)
  | 3 => (0, (1 : UInt8) <<< 2)
  | 4 => (0, (1 : UInt8) <<< 1)
  | _ => (0, (1 : UInt8) <<< 0)

/-- The latch of the pin is cleared. -/
def assign (i c : Fin maxServos) : Servos :=
  { s with
    p0 := s.p0 &&& ~~~(pinMasks c).1
    p1 := s.p1 &&& ~~~(pinMasks c).2
    servoAssignment := Function.update s.servoAssignment i c
    servoPinsOnPort0 := s.servoPinsOnPort0 ||| (pinMasks c).1
    servoPinsOnPort1 := s.servoPinsOnPort1 ||| (pinMasks c).2 }

def initServo (pins : List UInt8) (i : Fin maxServos) : Servos :=
  let cleared := { s with servoData := Function.update s.servoData i ⟨0, 0, 0, 0⟩ }
  match pins[i.val]? with
  | some pin => cleared.assign i (pinToInternalChannelNumber pin)
  | none => cleared

def releasePins : Servos :=
  { s with
    p0sel := s.p0sel &&& ~~~s.servoPinsOnPort0
    p1sel := s.p1sel &&& ~~~s.servoPinsOnPort1 }

def outputPins : Servos :=
  { s with
    p0dir := s.p0dir ||| s.servoPinsOnPort0
    p1dir := s.p1dir ||| s.servoPinsOnPort1 }

def initServos (pins : List UInt8) : Servos :=
  ((List.finRange maxServos).foldl (fun (s : Servos) i => s.initServo pins i)
    { s with servoPinsOnPort0 := 0, servoPinsOnPort1 := 0 }).releasePins.outputPins

def servosStop : Servos :=
  if s.servosStartedFlag then { s.releasePins with servosStartedFlag := false } else s

def startTimer : Servos :=
  { s with servoCounter := 0, t1cc := (0xFFFF, 0xFFFF, 0xFFFF), servosStartedFlag := true }

/-- The null pointer for `pins` keeps the pins, targets, positions and speeds. -/
def servosStart (pins : Option (List UInt8)) : Servos :=
  (pins.elim s.servosStop s.servosStop.initServos).startTimer

def servo (servoNum : Fin maxServos) : ServoData := s.servoData (s.servoAssignment servoNum)

def setServo (servoNum : Fin maxServos) (d : ServoData) : Servos :=
  { s with servoData := Function.update s.servoData (s.servoAssignment servoNum) d }

def servoSetTargetHighRes (servoNum : Fin maxServos) (target : UInt16) : Servos :=
  let d := s.servo servoNum
  if d.speed = 0 ∨ d.target = 0 ∨ target = 0 then
    s.setServo servoNum { d.setPosition target with target := target }
  else if target ≠ d.position then
    { s.setServo servoNum { d with target := target } with servosMovingFlag := true }
  else s.setServo servoNum { d with target := target }

/-- SERVO_TICKS_PER_MICROSECOND is 24. -/
def servoSetTarget (servoNum : Fin maxServos) (targetMicroseconds : UInt16) : Servos :=
  s.servoSetTargetHighRes servoNum (targetMicroseconds * 24)

def servoSetSpeed (servoNum : Fin maxServos) (speed : UInt16) : Servos :=
  s.setServo servoNum { s.servo servoNum with speed := speed }

end Servos

inductive Action
  | setTarget (servoNum : Fin maxServos) (target : UInt16)
  | setSpeed (servoNum : Fin maxServos) (speed : UInt16)
  | interrupt
  deriving DecidableEq, Repr

def Servos.step (s : Servos) : Action → Option Servos
  | .setTarget servoNum target => some (s.servoSetTargetHighRes servoNum target)
  | .setSpeed servoNum speed => some (s.servoSetSpeed servoNum speed)
  | .interrupt => some s.isrT1

/-! ### One servo -/

namespace ServoData

variable {d : ServoData}

@[simp] theorem update_target (d : ServoData) : d.update.target = d.target := rfl
@[simp] theorem update_speed (d : ServoData) : d.update.speed = d.speed := rfl
@[simp] theorem update_position (d : ServoData) : d.update.position = d.advance.1 := rfl

theorem advance_of_free (h : d.speed = 0 ∨ d.position = 0) : d.advance = (d.target, false) := by
  rw [advance, if_neg]
  rintro ⟨hspeed, hposition⟩
  exact h.elim hspeed hposition

/-- Below the target the unsigned difference is the distance. -/
theorem advance_of_lt (hs : d.speed ≠ 0) (hp : d.position ≠ 0)
    (hup : d.position.toNat < d.target.toNat) :
    d.advance = if d.target.toNat - d.position.toNat < d.speed.toNat then (d.target, false)
      else (d.position + d.speed, true) := by
  have hdiff : (d.target - d.position).toNat = d.target.toNat - d.position.toNat :=
    UInt16.toNat_sub_of_le _ _ (UInt16.le_iff_toNat_le.mpr (Nat.le_of_lt hup))
  rw [advance, if_pos ⟨hs, hp⟩, if_pos (UInt16.lt_iff_toNat_lt.mpr hup)]
  exact if_congr (by rw [UInt16.lt_iff_toNat_lt, hdiff]) rfl rfl

theorem advance_of_ge (hs : d.speed ≠ 0) (hp : d.position ≠ 0)
    (hdown : d.target.toNat ≤ d.position.toNat) :
    d.advance = if d.position.toNat - d.target.toNat < d.speed.toNat then (d.target, false)
      else (d.position - d.speed, true) := by
  have hdiff : (d.position - d.target).toNat = d.position.toNat - d.target.toNat :=
    UInt16.toNat_sub_of_le _ _ (UInt16.le_iff_toNat_le.mpr hdown)
  have hup : ¬ d.target > d.position := fun h =>
    Nat.not_lt.mpr hdown (UInt16.lt_iff_toNat_lt.mp h)
  rw [advance, if_pos ⟨hs, hp⟩, if_neg hup]
  exact if_congr (by rw [UInt16.lt_iff_toNat_lt, hdiff]) rfl rfl

/-- The unsigned differences and sums do not wrap around. -/
theorem advance_of_limited (hs : d.speed ≠ 0) (hp : d.position ≠ 0) :
    d.advance.1.toNat = RateLimit.approach d.position.toNat d.target.toNat d.speed.toNat := by
  have hmax := d.target.toNat_lt
  unfold RateLimit.approach
  rcases Nat.lt_or_ge d.position.toNat d.target.toNat with hup | hdown
  · rw [advance_of_lt hs hp hup, if_pos hup]
    split_ifs with hnear
    · change d.target.toNat = _
      exact (Nat.min_eq_right (by omega)).symm
    · have hsum : (d.position + d.speed).toNat = d.position.toNat + d.speed.toNat := by
        rw [UInt16.toNat_add, Nat.mod_eq_of_lt (by omega)]
      exact hsum.trans (Nat.min_eq_left (by omega)).symm
  · rw [advance_of_ge hs hp hdown, if_neg (Nat.not_lt.mpr hdown)]
    split_ifs with hnear
    · change d.target.toNat = _
      exact (Nat.max_eq_right (by omega)).symm
    · have hle : d.speed ≤ d.position := UInt16.le_iff_toNat_le.mpr (by omega)
      exact (UInt16.toNat_sub_of_le _ _ hle).trans (Nat.max_eq_left (by omega)).symm

theorem advance_of_still (h : d.advance.2 = false) : d.advance.1 = d.target := by
  unfold advance at h ⊢
  split_ifs at h ⊢ <;> rfl

/-- What holds of a servo's data between two steps. -/
structure Sound (d : ServoData) : Prop where
  zero : d.position = 0 ↔ d.target = 0
  positionReg : d.positionReg = -d.position

theorem toNat_eq_zero (x : UInt16) : x.toNat = 0 ↔ x = 0 := by
  rw [← UInt16.toNat_inj, UInt16.toNat_zero]

theorem Sound.update (h : d.Sound) : d.update.Sound := by
  refine ⟨?_, (UInt16.neg_eq_not_add _).symm⟩
  change d.advance.1 = 0 ↔ d.target = 0
  by_cases hfree : d.speed = 0 ∨ d.position = 0
  · rw [advance_of_free hfree]
  · obtain ⟨hs, hp⟩ := not_or.mp hfree
    have ht := h.zero.not.mp hp
    refine iff_of_false (fun hz => ?_) ht
    rw [← toNat_eq_zero, advance_of_limited hs hp] at hz
    rw [← toNat_eq_zero] at hp ht
    rcases Nat.le_total d.position.toNat d.target.toNat with hle | hle
    · have hbound := RateLimit.approach_of_le (v := d.speed.toNat) hle
      omega
    · have hbound := RateLimit.approach_of_ge (v := d.speed.toNat) hle
      omega

theorem Sound.setTarget {target : UInt16} :
    Sound { d.setPosition target with target := target } :=
  ⟨Iff.rfl, (UInt16.neg_eq_not_add _).symm⟩

theorem Sound.retarget {target : UInt16} (h : d.Sound)
    (hne : ¬ (d.speed = 0 ∨ d.target = 0 ∨ target = 0)) : Sound { d with target := target } := by
  obtain ⟨-, hne⟩ := not_or.mp hne
  obtain ⟨hold, hnew⟩ := not_or.mp hne
  exact ⟨iff_of_false (h.zero.not.mpr hold) hnew, h.positionReg⟩

/-- What a servo period does to a servo. -/
structure Moves (d d' : ServoData) : Prop where
  target : d'.target = d.target
  free : d.speed = 0 ∨ d.position = 0 → d'.position = d.target
  up : d.speed ≠ 0 → d.position ≠ 0 → d.position ≤ d.target →
    d.position ≤ d'.position ∧ d'.position ≤ d.target ∧
      d'.position.toNat ≤ d.position.toNat + d.speed.toNat
  down : d.speed ≠ 0 → d.position ≠ 0 → d.target ≤ d.position →
    d.target ≤ d'.position ∧ d'.position ≤ d.position ∧
      d.position.toNat ≤ d'.position.toNat + d.speed.toNat
  rate : d.speed ≠ 0 → d.position ≠ 0 → Nat.dist d'.position.toNat d.target.toNat =
    Nat.dist d.position.toNat d.target.toNat - d.speed.toNat

theorem moves_update (d : ServoData) : d.Moves d.update where
  target := rfl
  free h := congrArg Prod.fst (advance_of_free h)
  up hs hp hle := by
    simp only [UInt16.le_iff_toNat_le, update_position, advance_of_limited hs hp] at hle ⊢
    exact RateLimit.approach_of_le hle
  down hs hp hle := by
    simp only [UInt16.le_iff_toNat_le, update_position, advance_of_limited hs hp] at hle ⊢
    exact RateLimit.approach_of_ge hle
  rate hs hp := by
    rw [update_position, advance_of_limited hs hp, RateLimit.dist_approach]

/-- Every period brings a servo that is not at its target nearer to it. -/
theorem dist_update_le (d : ServoData) :
    Nat.dist d.update.position.toNat d.target.toNat ≤
      Nat.dist d.position.toNat d.target.toNat - 1 := by
  by_cases hfree : d.speed = 0 ∨ d.position = 0
  · rw [d.moves_update.free hfree, Nat.dist_self]
    exact Nat.zero_le _
  · obtain ⟨hs, hp⟩ := not_or.mp hfree
    have hpos : 1 ≤ d.speed.toNat := Nat.pos_of_ne_zero fun hz => hs ((toNat_eq_zero _).mp hz)
    rw [d.moves_update.rate hs hp]
    exact Nat.sub_le_sub_left hpos _

theorem dist_iterate_update_le (d : ServoData) (m : ℕ) :
    (update^[m] d).target = d.target ∧
      Nat.dist (update^[m] d).position.toNat d.target.toNat ≤
        Nat.dist d.position.toNat d.target.toNat - m := by
  induction m with
  | zero => exact ⟨rfl, Nat.le_refl _⟩
  | succ m ih =>
      rw [Function.iterate_succ_apply', update_target]
      have hstep := (update^[m] d).dist_update_le
      rw [ih.1] at hstep
      exact ⟨ih.1, by omega⟩

theorem position_iterate_update (d : ServoData) {m : ℕ} (hm : 65535 ≤ m) :
    (update^[m] d).position = d.target := by
  obtain ⟨-, hdist⟩ := d.dist_iterate_update_le m
  have hp := d.position.toNat_lt
  have ht := d.target.toNat_lt
  have hmax : Nat.dist d.position.toNat d.target.toNat ≤ 65535 := by
    unfold Nat.dist
    omega
  exact UInt16.toNat_inj.mp (Nat.eq_of_dist_eq_zero (by omega))

end ServoData

/-! ### The interrupt -/

namespace Servos

variable {s : Servos} {i : Fin maxServos}

theorem foldl_updateServo {l : List (Fin maxServos)} (hl : l.Nodup) (s : Servos) :
    (∀ i, (l.foldl updateServo s).servoData i =
      if i ∈ l then (s.servoData i).update else s.servoData i) ∧
    ((l.foldl updateServo s).servosMovingFlag = false ↔
      s.servosMovingFlag = false ∧ ∀ i ∈ l, (s.servoData i).advance.2 = false) ∧
    (l.foldl updateServo s).servoCounter = s.servoCounter := by
  induction l generalizing s with
  | nil => exact ⟨fun _ => rfl, (and_iff_left nofun).symm, rfl⟩
  | cons j l ih =>
      obtain ⟨hj, hl⟩ := List.nodup_cons.mp hl
      obtain ⟨hdata, hflag, hcounter⟩ := ih hl (s.updateServo j)
      have hne : ∀ i ∈ l, (s.updateServo j).servoData i = s.servoData i := fun i hi =>
        Function.update_of_ne (fun he : i = j => hj (he ▸ hi)) _ _
      refine ⟨fun i => ?_, ?_, hcounter⟩
      · rw [List.foldl_cons, hdata]
        by_cases hi : i ∈ l
        · rw [if_pos hi, if_pos (List.mem_cons_of_mem _ hi), hne i hi]
        · rw [if_neg hi]
          by_cases hij : i = j
          · rw [if_pos (hij ▸ List.mem_cons_self), hij]
            exact Function.update_self _ _ _
          · rw [if_neg (fun hmem => (List.mem_cons.mp hmem).elim hij hi)]
            exact Function.update_of_ne hij _ _
      · rw [List.foldl_cons, hflag, List.forall_mem_cons]
        have hrest : (∀ i ∈ l, ((s.updateServo j).servoData i).advance.2 = false) ↔
            ∀ i ∈ l, (s.servoData i).advance.2 = false :=
          forall₂_congr fun i hi => by rw [hne i hi]
        rw [hrest, ← and_assoc]
        exact and_congr_left fun _ => Bool.or_eq_false_iff

theorem isrT1_of_eq (h : s.servoCounter = 6) :
    (∀ i, s.isrT1.servoData i = (s.servoData i).update) ∧
    (s.isrT1.servosMovingFlag = false ↔ ∀ i, (s.servoData i).advance.2 = false) ∧
    s.isrT1.servoCounter = 0 := by
  obtain ⟨hdata, hflag, hcounter⟩ := foldl_updateServo (List.nodup_finRange maxServos)
    { s with servoCounter := 0, servosMovingFlag := false }
  have hisr : s.isrT1 = updateServos { s with servoCounter := 0, servosMovingFlag := false } := by
    simp only [isrT1, h]
    rfl
  rw [hisr]
  refine ⟨fun i => (hdata i).trans (if_pos (List.mem_finRange i)), hflag.trans ?_, hcounter⟩
  exact (and_iff_right rfl).trans (forall_congr' fun i => forall_prop_of_true (List.mem_finRange i))

theorem isrT1_of_ne (h : s.servoCounter ≠ 6) :
    s.isrT1.servoData = s.servoData ∧ s.isrT1.servosMovingFlag = s.servosMovingFlag ∧
      s.isrT1.servoCounter = s.servoCounter + 1 := by
  unfold isrT1
  split
  case h_7 h₆ => exact absurd (UInt8.toNat_inj.mp h₆) h
  all_goals exact ⟨rfl, rfl, rfl⟩

/-! ### Every sequence of steps -/

/-- What holds after `servosStart` and is kept by the setters and the interrupt. -/
structure Steady (s : Servos) : Prop where
  counter : s.servoCounter.toNat ≤ 6
  sound : ∀ i, (s.servoData i).Sound
  still : s.servosMovingFlag = false → ∀ i, (s.servoData i).position = (s.servoData i).target

theorem initServo_servoData (s : Servos) (pins : List UInt8) (j : Fin maxServos) :
    (s.initServo pins j).servoData = Function.update s.servoData j ⟨0, 0, 0, 0⟩ := by
  unfold initServo
  split <;> rfl

theorem foldl_initServo (pins : List UInt8) (l : List (Fin maxServos)) (s : Servos)
    (i : Fin maxServos) : (l.foldl (fun (s : Servos) i => s.initServo pins i) s).servoData i =
      if i ∈ l then ⟨0, 0, 0, 0⟩ else s.servoData i := by
  induction l generalizing s with
  | nil => rfl
  | cons j l ih =>
      rw [List.foldl_cons, ih, initServo_servoData]
      by_cases hi : i ∈ l
      · rw [if_pos hi, if_pos (List.mem_cons_of_mem _ hi)]
      · rw [if_neg hi]
        by_cases hij : i = j
        · rw [if_pos (hij ▸ List.mem_cons_self), hij, Function.update_self]
        · rw [if_neg (fun hmem => (List.mem_cons.mp hmem).elim hij hi), Function.update_of_ne hij]

theorem steady_servosStart (s : Servos) (pins : List UInt8) : (s.servosStart (some pins)).Steady := by
  have hdata : ∀ i, (s.servosStart (some pins)).servoData i = ⟨0, 0, 0, 0⟩ := fun i =>
    (foldl_initServo pins _ _ i).trans (if_pos (List.mem_finRange i))
  refine ⟨Nat.zero_le _, fun i => ?_, fun _ i => ?_⟩
  · rw [hdata]
    exact ⟨Iff.rfl, rfl⟩
  · rw [hdata]

/-- A setter changes one servo, and the flag only from 0 to 1. -/
theorem Steady.setServo (h : s.Steady) {n : Fin maxServos} {d : ServoData} (hd : d.Sound)
    (moving : Bool) (hmoving : moving = false → s.servosMovingFlag = false ∧ d.position = d.target) :
    Steady { s.setServo n d with servosMovingFlag := moving } := by
  refine ⟨h.counter, fun i => ?_, fun hm i => ?_⟩
  · change (Function.update s.servoData (s.servoAssignment n) d i).Sound
    by_cases hi : i = s.servoAssignment n
    · rw [hi, Function.update_self]
      exact hd
    · rw [Function.update_of_ne hi]
      exact h.sound i
  · change (Function.update s.servoData (s.servoAssignment n) d i).position =
      (Function.update s.servoData (s.servoAssignment n) d i).target
    by_cases hi : i = s.servoAssignment n
    · rw [hi, Function.update_self]
      exact (hmoving hm).2
    · rw [Function.update_of_ne hi]
      exact h.still (hmoving hm).1 i

theorem Steady.servoSetTargetHighRes (h : s.Steady) (n : Fin maxServos) (target : UInt16) :
    (s.servoSetTargetHighRes n target).Steady := by
  have hsound : (s.servo n).Sound := h.sound _
  unfold Servos.servoSetTargetHighRes
  dsimp only
  split_ifs with himmediate hmoves
  · exact h.setServo .setTarget s.servosMovingFlag fun hm => ⟨hm, rfl⟩
  · exact h.setServo (d := { s.servo n with target := target }) (hsound.retarget himmediate) true
      nofun
  · exact h.setServo (d := { s.servo n with target := target }) (hsound.retarget himmediate)
      s.servosMovingFlag fun hm => ⟨hm, (not_not.mp hmoves).symm⟩

theorem Steady.servoSetSpeed (h : s.Steady) (n : Fin maxServos) (speed : UInt16) :
    (s.servoSetSpeed n speed).Steady :=
  h.setServo (d := { s.servo n with speed := speed }) ⟨(h.sound _).zero, (h.sound _).positionReg⟩
    s.servosMovingFlag fun hm => ⟨hm, h.still hm _⟩

theorem Steady.isrT1 (h : s.Steady) : s.isrT1.Steady := by
  by_cases hc : s.servoCounter = 6
  · obtain ⟨hdata, hflag, hcounter⟩ := isrT1_of_eq hc
    refine ⟨by rw [hcounter]; decide, fun i => ?_, fun hm i => ?_⟩
    · rw [hdata]
      exact (h.sound i).update
    · rw [hdata]
      exact ServoData.advance_of_still (hflag.mp hm i)
  · obtain ⟨hdata, hflag, hcounter⟩ := isrT1_of_ne hc
    rw [← UInt8.toNat_inj] at hc
    have hle := h.counter
    refine ⟨?_, fun i => ?_, fun hm i => ?_⟩
    · rw [hcounter, UInt8.toNat_add, UInt8.toNat_one, Nat.mod_eq_of_lt (by omega)]
      exact Nat.lt_of_le_of_ne hle hc
    · rw [hdata]
      exact h.sound i
    · rw [hdata]
      exact h.still (hflag.symm.trans hm) i

theorem Steady.step {t : Servos} {a : Action} (h : s.Steady) (ht : s.step a = some t) :
    t.Steady := by
  cases a with
  | setTarget n target => obtain rfl := Option.some.inj ht; exact h.servoSetTargetHighRes n target
  | setSpeed n speed => obtain rfl := Option.some.inj ht; exact h.servoSetSpeed n speed
  | interrupt => obtain rfl := Option.some.inj ht; exact h.isrT1

theorem iterate_isrT1 (h : s.servoCounter.toNat ≤ 6) (k : ℕ) :
    (isrT1^[k] s).servoCounter.toNat = (s.servoCounter.toNat + k) % 7 ∧
      ∀ i, (isrT1^[k] s).servoData i =
        ServoData.update^[(s.servoCounter.toNat + k) / 7] (s.servoData i) := by
  induction k with
  | zero =>
      rw [Nat.add_zero, Nat.mod_eq_of_lt (by omega), Nat.div_eq_of_lt (by omega)]
      exact ⟨rfl, fun _ => rfl⟩
  | succ k ih =>
      obtain ⟨hcounter, hdata⟩ := ih
      rw [Function.iterate_succ_apply']
      by_cases hc : (isrT1^[k] s).servoCounter = 6
      · obtain ⟨hdata', -, hcounter'⟩ := isrT1_of_eq hc
        have hc' : (s.servoCounter.toNat + k) % 7 = 6 := by rw [← hcounter, hc]; rfl
        refine ⟨?_, fun i => ?_⟩
        · rw [hcounter', UInt8.toNat_zero]
          omega
        · have hperiods : (s.servoCounter.toNat + (k + 1)) / 7 =
              (s.servoCounter.toNat + k) / 7 + 1 := by omega
          rw [hdata', hdata, hperiods, Function.iterate_succ_apply']
      · obtain ⟨hdata', -, hcounter'⟩ := isrT1_of_ne hc
        have hc' : (s.servoCounter.toNat + k) % 7 ≠ 6 := fun he =>
          hc (UInt8.toNat_inj.mp (hcounter.trans he))
        refine ⟨?_, fun i => ?_⟩
        · have hsucc : ((isrT1^[k] s).servoCounter.toNat + 1) % 2 ^ 8 =
              (isrT1^[k] s).servoCounter.toNat + 1 := Nat.mod_eq_of_lt (by omega)
          rw [hcounter', UInt8.toNat_add, UInt8.toNat_one, hsucc, hcounter]
          omega
        · have hperiods : (s.servoCounter.toNat + (k + 1)) / 7 = (s.servoCounter.toNat + k) / 7 := by
            omega
          rw [hdata', hdata, hperiods]

/-- Servo motion, for every order of setters and interrupts after `servosStart`. -/
theorem servo_motion {s₀ : Servos} {pins : List UInt8}
    (hr : Run step (fun _ _ => True) (s₀.servosStart (some pins)) s) :
    (∀ i, ((s.servoData i).position = 0 ↔ (s.servoData i).target = 0) ∧
      (s.servoData i).positionReg = -(s.servoData i).position) ∧
    (∀ i, (s.servoCounter ≠ 6 → s.isrT1.servoData i = s.servoData i) ∧
      (s.servoCounter = 6 → (s.servoData i).Moves (s.isrT1.servoData i))) ∧
    (∀ k, 7 * 65535 ≤ k → ∀ i, ((isrT1^[k] s).servoData i).position = (s.servoData i).target) ∧
    (s.servosMovingFlag = false → ∀ i, (s.servoData i).position = (s.servoData i).target) := by
  have h : s.Steady := Run.invariant hr (steady_servosStart s₀ pins)
    fun _ _ _ hs _ ht => Steady.step hs ht
  refine ⟨fun i => ⟨(h.sound i).zero, (h.sound i).positionReg⟩, fun i => ⟨fun hc => ?_, fun hc => ?_⟩,
    fun k hk i => ?_, h.still⟩
  · rw [(isrT1_of_ne hc).1]
  · rw [(isrT1_of_eq hc).1]
    exact ServoData.moves_update _
  · rw [(iterate_isrT1 h.counter k).2]
    exact ServoData.position_iterate_update _ (by omega)

def init (ports : Ports) : Servos where
  toPorts := ports
  servosStartedFlag := false
  servosMovingFlag := false
  servoCounter := 0
  servoAssignment := fun _ => 0
  servoData := fun _ => ⟨0, 0, 0, 0⟩
  servoPinsOnPort0 := 0
  servoPinsOnPort1 := 0
  t1cfg := false
  t1cc := (0, 0, 0)

/-- After a reset the latches are set, and all pins are inputs. -/
def powerUp : Servos := init ⟨0xFF, 0xFF, 0, 0, 0, 0⟩

/-- Two servos on P1_0 and P0_3, the first of them on its way from 1000 to 2000. -/
theorem servo_motion_two_servos : ∃ s : Servos,
    ((s.servo 0).position, (s.servo 0).target, s.servosMovingFlag) = (1300, 2000, true) ∧
    ((isrT1^[458745] s).servoData (s.servoAssignment 0)).position =
      (s.servoData (s.servoAssignment 0)).target := by
  have hrun : (exec step (fun _ _ => True) (powerUp.servosStart (some [10, 3]))
      ([.setSpeed 0 300, .setTarget 0 1000, .setTarget 0 2000] ++
        List.replicate 7 .interrupt)).map
      (fun s => ((s.servo 0).position, (s.servo 0).target, s.servosMovingFlag)) =
      some (1300, 2000, true) := by decide +kernel
  obtain ⟨s, hr, hs⟩ := exists_run_of_exec hrun
  exact ⟨s, hs, (servo_motion hr).2.2.1 _ (by decide) _⟩

end Servos

end WixelSdk.Servo
