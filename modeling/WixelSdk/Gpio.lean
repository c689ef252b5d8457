import Mathlib.Data.Fin.Basic
import Mathlib.Logic.Function.Basic

/-!
# Digital pins

`setDigitalOutput` and `isPinHigh` find the port and the bit of a pin number in one table. A pin that is
an output has the level of its latch, another one the level that the outside gives it.
-/

namespace WixelSdk.Gpio

abbrev Place := Fin 3 × Fin 8

structure Registers where
  /-- The bits of P0, P1 and P2. -/
  latch : Place → Bool
  /-- The bits of P0DIR, P1DIR and P2DIR. -/
  dir : Place → Bool
  /-- Bits 5 to 7 of P2INP: the ports that are pulled low. -/
  pulledLow : Fin 3 → Bool

def pinSwitch : UInt8 → Option Place
  | 0 => some (0, 0)
  | 1 => some (0, 1)
  | 2 => some (0, 2)
  | 3 => some (0, 3)
  | 4 => some (0, 4)
  | 5 => some (0, 5)
  | 10 => some (1, 0)
  | 11 => some (1, 1)
  | 12 => some (1, 2)
  | 13 => some (1, 3)
  | 14 => some (1, 4)
  | 15 => some (1, 5)
  | 16 => some (1, 6)
  | 17 => some (1, 7)
  | 20 => some (2, 0)
  | 21 => some (2, 1)
  | 22 => some (2, 2)
  | 23 => some (2, 3)
  | 24 => some (2, 4)
  | _ => none

namespace Registers

variable (s : Registers)

def setDigitalOutput (pinNumber : UInt8) (value : Bool) : Registers :=
  match pinSwitch pinNumber with
  | some q =>
    { s with latch := Function.update s.latch q value, dir := Function.update s.dir q true }
  | none => s

def level (outside : Place → Bool) (q : Place) : Bool := if s.dir q then s.latch q else outside q

def isPinHigh (outside : Place → Bool) (pinNumber : UInt8) : Bool :=
  match pinSwitch pinNumber with
  | some q => s.level outside q
  | none => false

def setPort0PullType (pullType : Bool) : Registers :=
  { s with pulledLow := Function.update s.pulledLow 0 !pullType }

def setPort1PullType (pullType : Bool) : Registers :=
  { s with pulledLow := Function.update s.pulledLow 1 !pullType }

/-- LED_GREEN, which drives P2_4 -/
def ledGreen (v : Bool) : Registers := { s with dir := Function.update s.dir (2, 4) v }

/-- LED_YELLOW, which drives P2_2 -/
def ledYellow (v : Bool) : Registers := { s with dir := Function.update s.dir (2, 2) v }

def Outputs (pinNumber : UInt8) (v : Bool) : Prop :=
  ∃ q, pinSwitch pinNumber = some q ∧ s.dir q = true ∧ s.latch q = v

variable {s} {n : UInt8} {q : Place} {v : Bool} {outside : Place → Bool}

theorem Outputs.isPinHigh (h : s.Outputs n v) (outside : Place → Bool) :
    s.isPinHigh outside n = v := by
  obtain ⟨q, hq, hdir, hlatch⟩ := h
  rw [Registers.isPinHigh, hq]
  exact (if_pos hdir).trans hlatch

theorem isPinHigh_of_input (hq : pinSwitch n = some q) (hdir : s.dir q = false) :
    s.isPinHigh outside n = outside q := by
  rw [isPinHigh, hq]
  exact if_neg (by rw [hdir]; exact Bool.false_ne_true)

theorem update_eq_ite (f : Place → Bool) (r q : Place) (v : Bool) :
    Function.update f r v q = if some r = some q then v else f q := by
  rw [Function.update_apply]
  exact if_congr (eq_comm.trans Option.some_inj.symm) rfl rfl

theorem setDigitalOutput_latch (s : Registers) (n : UInt8) (v : Bool) (q : Place) :
    (s.setDigitalOutput n v).latch q = if pinSwitch n = some q then v else s.latch q := by
  unfold setDigitalOutput
  cases pinSwitch n with
  | none => exact (if_neg nofun).symm
  | some r => exact update_eq_ite s.latch r q v

theorem setDigitalOutput_dir (s : Registers) (n : UInt8) (v : Bool) (q : Place) :
    (s.setDigitalOutput n v).dir q = if pinSwitch n = some q then true else s.dir q := by
  unfold setDigitalOutput
  cases pinSwitch n with
  | none => exact (if_neg nofun).symm
  | some r => exact update_eq_ite s.dir r q true

@[simp] theorem setDigitalOutput_pulledLow (s : Registers) (n : UInt8) (v : Bool) :
    (s.setDigitalOutput n v).pulledLow = s.pulledLow := by
  unfold setDigitalOutput
  cases pinSwitch n <;> rfl

end Registers

end WixelSdk.Gpio
