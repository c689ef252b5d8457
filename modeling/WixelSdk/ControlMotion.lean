import Mathlib.Data.List.Induction
import Mathlib.Data.Nat.Notation
import Mathlib.Tactic.SplitIfs

/-!
# Timed motions

`control_motion.h` of the lcc robot: `MoveUpdate` starts a motion of a given duration, and ends it
when it is called again after that. A motion ends in two calls: the first that comes too late for
the motion notes this, and the next one brakes.
-/

namespace WixelSdk.ControlMotion

/-- The motor driver inputs A1, A2, B1 and B2. -/
structure Pins where
  a1 : Bool
  a2 : Bool
  b1 : Bool
  b2 : Bool
  deriving DecidableEq, Repr

def moveForward : Pins := ⟨true, false, false, true⟩
def moveBackward : Pins := ⟨false, true, true, false⟩
def moveRight : Pins := ⟨true, false, true, false⟩
def moveLeft : Pins := ⟨false, true, false, true⟩
def brake : Pins := ⟨true, true, true, true⟩

/-! The bits of a command, MOVE_UPDT to MOVE_DUR4. -/

namespace Move

abbrev updt : UInt16 := 1
abbrev left : UInt16 := 2
abbrev rght : UInt16 := 4
abbrev fwrd : UInt16 := 8
abbrev bwrd : UInt16 := 16
abbrev stop : UInt16 := 32
abbrev dur0 : UInt16 := 64
abbrev dur1 : UInt16 := 128
abbrev dur2 : UInt16 := 256
abbrev dur3 : UInt16 := 512
abbrev dur4 : UInt16 := 1024

end Move

def updateDuration (cmd : UInt16) : Option UInt32 :=
  if cmd &&& Move.dur0 ≠ 0 then some 10
  else if cmd &&& Move.dur1 ≠ 0 then some 20
  else if cmd &&& Move.dur2 ≠ 0 then some 30
  else if cmd &&& Move.dur3 ≠ 0 then some 50
  else if cmd &&& Move.dur4 ≠ 0 then some 70
  else none

def updateDirection (cmd : UInt8) : Option Pins :=
  if cmd.toUInt16 &&& Move.left ≠ 0 then some moveLeft
  else if cmd.toUInt16 &&& Move.rght ≠ 0 then some moveRight
  else if cmd.toUInt16 &&& Move.fwrd ≠ 0 then some moveForward
  else if cmd.toUInt16 &&& Move.bwrd ≠ 0 then some moveBackward
  else if cmd.toUInt16 &&& Move.stop ≠ 0 then some brake
  else none

def duration (cmd : UInt16) : UInt32 := (updateDuration cmd).getD 0

/-- The command gives a direction or a duration. -/
def Gives (cmd : UInt16) : Prop :=
  (updateDuration cmd).isSome = true ∨ (updateDirection cmd.toUInt8).isSome = true

instance : DecidablePred Gives := fun _ => inferInstanceAs (Decidable (_ ∨ _))

inductive MctlState
  | stop
  | init
  | moveing
  deriving DecidableEq, Repr

structure Motion where
  mctlState : MctlState
  mctlDuetime : UInt32
  mctlMvMs : UInt32
  pins : Pins
  deriving DecidableEq, Repr

namespace Motion

variable (c : Motion)

def command (cmd : UInt16) : Motion :=
  let c := { c with mctlMvMs := duration cmd }
  let c := if (updateDuration cmd).isSome then { c with mctlState := .init } else c
  match updateDirection cmd.toUInt8 with
  | some pins => { c with pins := pins, mctlState := .init }
  | none => c

def updateState (curTime : UInt32) : Motion :=
  match c.mctlState with
  | .stop => { c with pins := brake }
  | .init => { c with mctlDuetime := curTime + c.mctlMvMs, mctlState := .moveing }
  | .moveing => if curTime > c.mctlDuetime then { c with mctlState := .stop } else c

def moveUpdate (cmd : UInt16) (curTime : UInt32) : Motion := (c.command cmd).updateState curTime

/-- The static variables, with the pins as `Initialize` leaves them. -/
def start : Motion := ⟨.stop, 0, 20, ⟨false, false, false, false⟩⟩

/-- The calls of `MoveUpdate`, each with the time that it reads. -/
def moveUpdates (l : List (UInt32 × UInt16)) : Motion :=
  l.foldl (fun c e => c.moveUpdate e.2 e.1) c

theorem moveUpdates_snoc (l : List (UInt32 × UInt16)) (e : UInt32 × UInt16) :
    c.moveUpdates (l ++ [e]) = (c.moveUpdates l).moveUpdate e.2 e.1 := by
  rw [moveUpdates, List.foldl_append]
  rfl

variable {c} {cmd : UInt16} {p : Pins} {t due : UInt32} {n : ℕ}

theorem moveUpdate_of_direction (h : updateDirection cmd.toUInt8 = some p) :
    c.moveUpdate cmd t = ⟨.moveing, t + duration cmd, duration cmd, p⟩ := by
  unfold moveUpdate command
  rw [h]
  dsimp only [updateState]
  split_ifs <;> rfl

theorem moveUpdate_of_not_gives (h : ¬ Gives cmd) :
    c.moveUpdate cmd t = { c with mctlMvMs := duration cmd }.updateState t := by
  obtain ⟨hduration, hdirection⟩ := not_or.mp h
  unfold moveUpdate command
  dsimp only
  rw [if_neg hduration, Option.not_isSome_iff_eq_none.mp hdirection]

/-- What is left of a motion to `p` that is due at `due`, after `n` calls that came too late. -/
def Ends (c : Motion) (p : Pins) (due : UInt32) : ℕ → Prop
  | 0 => c.mctlState = .moveing ∧ c.mctlDuetime = due ∧ c.pins = p
  | 1 => c.mctlState = .stop ∧ c.pins = p
  | _ + 2 => c.mctlState = .stop ∧ c.pins = brake

theorem Ends.poll (h : c.Ends p due n) (hcmd : ¬ Gives cmd) (hlate : 0 < n → due < t) :
    (c.moveUpdate cmd t).Ends p due (n + if due < t then 1 else 0) := by
  rw [moveUpdate_of_not_gives hcmd]
  match n, h with
  | 0, h =>
      obtain ⟨hstate, hdue, hpins⟩ := h
      simp only [updateState, hstate, hdue, gt_iff_lt]
      split_ifs with hlt
      · exact ⟨rfl, hpins⟩
      · exact ⟨rfl, rfl, hpins⟩
  | 1, h =>
      rw [if_pos (hlate Nat.one_pos)]
      simp only [updateState, h.1]
      exact ⟨rfl, rfl⟩
  | k + 2, h =>
      rw [if_pos (hlate (Nat.succ_pos _))]
      simp only [updateState, h.1]
      exact ⟨rfl, rfl⟩

/-- The calls among `l` that read a time later than `due`. -/
def late (due : UInt32) (l : List (UInt32 × UInt16)) : ℕ := l.countP fun e => due < e.1

theorem Ends.polls {l : List (UInt32 × UInt16)} (h : c.Ends p due 0) (hcmd : ∀ e ∈ l, ¬ Gives e.2)
    (hsorted : l.Pairwise fun d e => d.1 ≤ e.1) : (c.moveUpdates l).Ends p due (late due l) := by
  induction l using List.reverseRecOn with
  | nil => exact h
  | append_singleton l e ih =>
      obtain ⟨hsorted, -, hle⟩ := List.pairwise_append.mp hsorted
      have hprev := ih (fun d hd => hcmd d (List.mem_append_left _ hd)) hsorted
      have hlate : 0 < late due l → due < e.1 := by
        intro hpos
        obtain ⟨d, hd, hdue⟩ := List.countP_pos_iff.mp hpos
        exact UInt32.lt_of_lt_of_le (of_decide_eq_true hdue)
          (hle d hd e (List.mem_singleton.mpr rfl))
      have hcount : late due (l ++ [e]) = late due l + if due < e.1 then 1 else 0 := by
        rw [late, List.countP_append, List.countP_singleton]
        simp only [decide_eq_true_eq]
        rfl
      rw [moveUpdates_snoc, hcount]
      exact hprev.poll (hcmd e (List.mem_append_right _ (List.mem_singleton.mpr rfl))) hlate

theorem Ends.pins_eq_brake_iff (h : c.Ends p due n) (hp : p ≠ brake) : c.pins = brake ↔ 2 ≤ n := by
  match n, h with
  | 0, h => exact iff_of_false (fun hb => hp (h.2.2.symm.trans hb)) (by decide)
  | 1, h => exact iff_of_false (fun hb => hp (h.2.symm.trans hb)) (by decide)
  | k + 2, h => exact iff_of_true h.2 (Nat.le_add_left 2 k)

end Motion

end WixelSdk.ControlMotion
