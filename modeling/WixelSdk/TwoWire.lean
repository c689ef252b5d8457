import Mathlib.Data.List.Basic

/-!
# The two-wire bus

A bus of two open-drain lines, the clock SCL and the data line SDA, between a master and a slave:
a line is low when either side pulls it low. `decode` reads a trace of the lines by the rules of
the I2C bus: SDA holds a bit while SCL is high, and a change of SDA while SCL is high is a START or
a STOP. `observe` checks what a slave owes to the master.
-/

namespace WixelSdk.TwoWire

/-- Which lines each side pulls low, at the time `ms`. -/
structure Wires where
  masterScl : Bool
  masterSda : Bool
  slaveScl : Bool
  slaveSda : Bool
  ms : ℕ
  deriving DecidableEq

namespace Wires

variable (w : Wires)

def scl : Bool := !(w.masterScl || w.slaveScl)

def sda : Bool := !(w.masterSda || w.slaveSda)

def released (ms : ℕ) : Wires := ⟨false, false, false, false, ms⟩

end Wires

/-- A bit comes with the level that the slave gives to SDA. -/
inductive Symbol
  | start
  | stop
  | bit (level slave : Bool)
  deriving DecidableEq

namespace Symbol

def isCondition : Symbol → Bool
  | bit _ _ => false
  | _ => true

/-- The condition that a change of SDA to this level is. -/
def condition (sda : Bool) : Symbol := if sda then stop else start

end Symbol

/-! ### Decoding -/

/-- `bit` is the bit of the clock pulse that has begun, and `changes` are the conditions that the
master wanted to make. -/
structure Decoder where
  last : Wires
  bit : Option (Bool × Bool)
  symbols : List Symbol
  changes : List Symbol
  deriving DecidableEq

namespace Decoder

variable (d : Decoder) (w : Wires)

/-- What ends with `w`: a bit when SCL falls, a condition when SDA changes while SCL is high. -/
def emit : List Symbol :=
  if d.last.scl then
    if w.scl then
      if w.sda = d.last.sda then [] else [.condition w.sda]
    else (d.bit.map fun b => .bit b.1 b.2).toList
  else []

def pending : Option (Bool × Bool) :=
  if w.scl then
    if d.last.scl then
      if w.sda = d.last.sda then d.bit else none
    else some (w.sda, !w.slaveSda)
  else none

def change : List Symbol :=
  if d.last.scl && w.scl && w.masterSda != d.last.masterSda then
    [.condition (!w.masterSda)]
  else []

def next : Decoder where
  last := w
  bit := d.pending w
  symbols := d.symbols ++ d.emit w
  changes := d.changes ++ d.change w

/-! #### The ways in which the lines go on -/

variable {d w}

theorem next_low (hl : d.last.scl = false) (hw : w.scl = false) :
    d.next w = ⟨w, none, d.symbols, d.changes⟩ := by
  simp [next, pending, emit, change, hl, hw]

theorem next_rise (hl : d.last.scl = false) (hw : w.scl = true) :
    d.next w = ⟨w, some (w.sda, !w.slaveSda), d.symbols, d.changes⟩ := by
  simp [next, pending, emit, change, hl, hw]

theorem next_fall (hl : d.last.scl = true) (hw : w.scl = false) :
    d.next w =
      ⟨w, none, d.symbols ++ (d.bit.map fun b => .bit b.1 b.2).toList, d.changes⟩ := by
  simp [next, pending, emit, change, hl, hw]

theorem next_high (hl : d.last.scl = true) (hw : w.scl = true) (hsda : w.sda = d.last.sda)
    (hm : w.masterSda = d.last.masterSda) : d.next w = ⟨w, d.bit, d.symbols, d.changes⟩ := by
  simp [next, pending, emit, change, hl, hw, hsda, hm]

/-- The master changes SDA while SCL is high, and the line follows. -/
theorem next_condition (hl : d.last.scl = true) (hw : w.scl = true) (hsda : w.sda ≠ d.last.sda)
    (hm : w.masterSda ≠ d.last.masterSda) (hline : w.sda = !w.masterSda) :
    d.next w = ⟨w, none, d.symbols ++ [.condition w.sda], d.changes ++ [.condition w.sda]⟩ := by
  simp [next, pending, emit, change, hl, hw, hsda, hm, ← hline]

end Decoder

/-- A trace that begins after the wires were `w`. -/
def decode (w : Wires) (trace : List Wires) : Decoder :=
  trace.foldl Decoder.next ⟨w, none, [], []⟩

@[simp] theorem decode_concat (w w' : Wires) (trace : List Wires) :
    decode w (trace ++ [w']) = (decode w trace).next w' := by
  rw [decode, decode, List.foldl_append, List.foldl_cons, List.foldl_nil]

/-! ### The slave's part -/

/-- What a slave may do with SDA during a clock pulse. -/
inductive Slot
  | released
  | data
  | ack
  deriving DecidableEq

def Slot.permits : Slot → Bool → Bool
  | released, sda => !sda
  | data, _ => true
  | ack, sda => sda

/-- `slots` are those of the pulses to come, and `since` is when the master let go of SCL while
the slave holds it. -/
structure Observer where
  last : Wires
  slots : List Slot
  since : Option ℕ
  obeyed : Bool
  deriving DecidableEq

namespace Observer

variable (timeout : ℕ) (o : Observer) (w : Wires)

/-- While SCL is high the slave neither changes SDA nor pulls SCL low. -/
def stable : Bool := !o.last.scl || (w.slaveSda == o.last.slaveSda && !w.slaveScl)

/-- When SCL rises the slave does with SDA what the slot says. -/
def fitting : Bool := o.last.scl || !w.scl || (o.slots.headD .released).permits w.slaveSda

/-- The slave does not hold SCL for longer than `timeout` after the master let go of it. -/
def brief : Bool := w.scl || w.masterScl || decide (w.ms - o.since.getD w.ms ≤ timeout)

def next : Observer where
  last := w
  slots := if !o.last.scl && w.scl then o.slots.tail else o.slots
  since := if w.scl || w.masterScl then none else some (o.since.getD w.ms)
  obeyed := o.obeyed && o.stable w && o.fitting w && o.brief timeout w

/-! #### The ways in which the lines go on -/

variable {timeout o w}

theorem next_low (hl : o.last.scl = false) (hw : w.masterScl = true) :
    o.next timeout w = ⟨w, o.slots, none, o.obeyed⟩ := by
  have hscl : w.scl = false := by simp [Wires.scl, hw]
  simp [next, stable, fitting, brief, hl, hw, hscl]

theorem next_fall (hl : o.last.scl = true) (hw : w.masterScl = true)
    (hsda : w.slaveSda = o.last.slaveSda) (hslave : w.slaveScl = false) :
    o.next timeout w = ⟨w, o.slots, none, o.obeyed⟩ := by
  have hscl : w.scl = false := by simp [Wires.scl, hw]
  simp [next, stable, fitting, brief, hl, hw, hscl, hsda, hslave]

theorem next_high (hl : o.last.scl = true) (hw : w.scl = true)
    (hsda : w.slaveSda = o.last.slaveSda) :
    o.next timeout w = ⟨w, o.slots, none, o.obeyed⟩ := by
  have hslave : w.slaveScl = false := by
    rw [Wires.scl, Bool.not_eq_true', Bool.or_eq_false_iff] at hw
    exact hw.2
  simp [next, stable, fitting, brief, hl, hw, hsda, hslave]

theorem next_rise (hl : o.last.scl = false) (hw : w.scl = true)
    (ho : (o.next timeout w).obeyed = true) :
    o.next timeout w = ⟨w, o.slots.tail, none, o.obeyed⟩ ∧
      (o.slots.headD .released).permits w.slaveSda = true := by
  have hfit : o.fitting w = true := by
    simp only [next, Bool.and_eq_true] at ho
    exact ho.1.2
  have hpermits := hfit
  rw [fitting, hl, hw] at hpermits
  refine ⟨?_, hpermits⟩
  simp [next, stable, hfit, brief, hl, hw]

theorem next_stretch (hl : o.last.scl = false) (hw : w.scl = false) (hm : w.masterScl = false)
    (ho : (o.next timeout w).obeyed = true) :
    o.next timeout w = ⟨w, o.slots, some (o.since.getD w.ms), o.obeyed⟩ ∧
      w.ms - o.since.getD w.ms ≤ timeout := by
  have hbrief : o.brief timeout w = true := by
    simp only [next, Bool.and_eq_true] at ho
    exact ho.2
  have hle := hbrief
  rw [brief, hw, hm] at hle
  refine ⟨?_, of_decide_eq_true hle⟩
  simp [next, stable, fitting, hbrief, hl, hw, hm]

/-- While SCL is high an obedient slave leaves its lines alone. -/
theorem stable_of_obeyed (hl : o.last.scl = true) (ho : (o.next timeout w).obeyed = true) :
    w.slaveSda = o.last.slaveSda ∧ w.slaveScl = false := by
  have hstable : o.stable w = true := by
    simp only [next, Bool.and_eq_true] at ho
    exact ho.1.1.2
  rw [stable, hl] at hstable
  simpa using hstable

end Observer

def observe (timeout : ℕ) (slots : List Slot) (w : Wires) (trace : List Wires) : Observer :=
  trace.foldl (Observer.next timeout) ⟨w, slots, none, true⟩

section Observe

variable {timeout : ℕ} {slots : List Slot} {w : Wires} {trace trace' : List Wires}

@[simp] theorem observe_concat (w' : Wires) :
    observe timeout slots w (trace ++ [w']) = (observe timeout slots w trace).next timeout w' := by
  rw [observe, observe, List.foldl_append, List.foldl_cons, List.foldl_nil]

theorem obeyed_of_next {o : Observer} {w' : Wires} (h : (o.next timeout w').obeyed = true) :
    o.obeyed = true := by
  simp only [Observer.next, Bool.and_eq_true] at h
  exact h.1.1.1

theorem obeyed_of_foldl {o : Observer}
    (h : (trace.foldl (Observer.next timeout) o).obeyed = true) : o.obeyed = true := by
  induction trace generalizing o with
  | nil => exact h
  | cons w' trace ih => exact obeyed_of_next (ih h)

/-- A slave that obeyed has obeyed all along. -/
theorem obeyed_of_prefix (hp : trace <+: trace')
    (h : (observe timeout slots w trace').obeyed = true) :
    (observe timeout slots w trace).obeyed = true := by
  obtain ⟨rest, rfl⟩ := hp
  rw [observe, List.foldl_append] at h
  exact obeyed_of_foldl h

end Observe
end WixelSdk.TwoWire
