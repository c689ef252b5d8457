import Mathlib.Algebra.Group.Nat.Defs
import Mathlib.Tactic.SplitIfs
import WixelSdk.TwoWire

/-!
# The software I2C master

`i2c.c`: the functions that make the I2C waveform with two pins. The delays between the accesses to
the pins have no meaning of their own here: the slave may do anything before each access. What it
does is given in advance, as one list of moves for each access to come; when there are none left,
the slave stands still.
-/

namespace WixelSdk.I2c
open TwoWire

/-- After `elapsed` milliseconds the slave pulls these lines low. -/
structure Move where
  elapsed : ℕ
  scl : Bool
  sda : Bool
  deriving DecidableEq

abbrev Turn := List Move

/-- The pins, what has been seen on the bus, and what the slave will do. -/
structure Bus where
  wires : Wires
  trace : List Wires
  turns : List Turn

namespace Bus

variable (b : Bus)

def drive (f : Wires → Wires) : Bus :=
  { b with wires := f b.wires, trace := b.trace ++ [f b.wires] }

def slaveMove (m : Move) : Bus :=
  b.drive fun w => { w with slaveScl := m.scl, slaveSda := m.sda, ms := w.ms + m.elapsed }

def slaveTurn (t : Turn) : Bus := t.foldl slaveMove b

def turn : Bus :=
  match b.turns with
  | [] => b
  | t :: ts => { b with turns := ts }.slaveTurn t

def i2cReadScl : Bool × Bus :=
  let b := b.drive fun w => { w with masterScl := false }
  (b.wires.scl, b)

def i2cReadSda : Bool × Bus :=
  let b := b.turn.drive fun w => { w with masterSda := false }
  (b.wires.sda, b)

def i2cClearScl : Bus := b.turn.drive fun w => { w with masterScl := true }

def i2cClearSda : Bus := b.turn.drive fun w => { w with masterSda := true }

/-- Time passes, and SCL is read for the last time. -/
def standStill (ms : ℕ) : Bus := b.drive fun w => { w with ms := w.ms + ms }

/-- The loop of `i2cWaitForHighScl`, which began at `time`: whether SCL became high. `getMs` is
read together with SCL. -/
def pollScl (timeoutMs time : ℕ) : List Turn → Bus → Bool × Bus
  | ts, b =>
      if b.i2cReadScl.1 then (true, { b.i2cReadScl.2 with turns := ts })
      else if (b.i2cReadScl.2.wires.ms - time) % 2 ^ 32 > timeoutMs then
        (false, { b.i2cReadScl.2 with turns := ts })
      else
        match ts with
        | [] => (false, { b.i2cReadScl.2 with turns := [] }.standStill (timeoutMs + 1))
        | t :: ts => pollScl timeoutMs time ts (b.i2cReadScl.2.slaveTurn t)

def waitForHighScl (timeoutMs : ℕ) : Bool × Bus :=
  pollScl timeoutMs b.turn.wires.ms b.turn.turns b.turn

variable {b} in
theorem pollScl_of_high {timeoutMs time : ℕ} (h : b.i2cReadScl.1 = true) (ts : List Turn) :
    pollScl timeoutMs time ts b = (true, { b.i2cReadScl.2 with turns := ts }) := by
  cases ts <;> rw [pollScl, if_pos h]

/-! ### What every access keeps -/

/-- A property of the bus that holds on whatever the slave does. -/
structure Kept (P : Bus → Prop) : Prop where
  turns : ∀ {b : Bus} (ts : List Turn), P b → P { b with turns := ts }
  slaveMove : ∀ {b : Bus} (m : Move), P b → P (b.slaveMove m)

namespace Kept

variable {b} {P : Bus → Prop} {timeoutMs time : ℕ}

theorem slaveTurn (h : Kept P) (t : Turn) (hb : P b) : P (b.slaveTurn t) := by
  induction t generalizing b with
  | nil => exact hb
  | cons m t ih => exact ih (h.slaveMove m hb)

theorem turn (h : Kept P) (hb : P b) : P b.turn := by
  rw [Bus.turn]
  split
  · exact hb
  · exact h.slaveTurn _ (h.turns _ hb)

theorem pollScl (h : Kept P) (hread : ∀ {b : Bus}, P b → P b.i2cReadScl.2)
    (hstill : ∀ {b : Bus} (ms : ℕ), P b → P (b.standStill ms)) (ts : List Turn) (hb : P b) :
    P (Bus.pollScl timeoutMs time ts b).2 := by
  induction ts generalizing b with
  | nil =>
    rw [Bus.pollScl]
    split_ifs
    · exact h.turns _ (hread hb)
    · exact h.turns _ (hread hb)
    · exact hstill _ (h.turns _ (hread hb))
  | cons t ts ih =>
    rw [Bus.pollScl]
    split_ifs
    · exact h.turns _ (hread hb)
    · exact h.turns _ (hread hb)
    · exact ih (h.slaveTurn t (hread hb))

theorem waitForHighScl (h : Kept P) (hread : ∀ {b : Bus}, P b → P b.i2cReadScl.2)
    (hstill : ∀ {b : Bus} (ms : ℕ), P b → P (b.standStill ms)) (hb : P b) :
    P (b.waitForHighScl timeoutMs).2 :=
  h.pollScl hread hstill _ (h.turn hb)

end Kept
end Bus

/-- The bus with the variables of the library. -/
structure Master where
  bus : Bus
  timeout : ℕ
  started : Bool
  i2cTimeoutOccurred : Bool
  internalTimeoutOccurred : Bool

namespace Master

variable (s : Master)

def i2cSetTimeout (timeoutMs : UInt16) : Master := { s with timeout := timeoutMs.toNat }

def i2cReadSda : Master := { s with bus := s.bus.i2cReadSda.2 }

def i2cClearSda : Master := { s with bus := s.bus.i2cClearSda }

def i2cClearScl : Master := { s with bus := s.bus.i2cClearScl }

def i2cWaitForHighScl : Master :=
  let result := s.bus.waitForHighScl s.timeout
  if result.1 then { s with bus := result.2 }
  else
    { s with
      bus := result.2
      internalTimeoutOccurred := true
      i2cTimeoutOccurred := true
      started := false }

def i2cStop : Master :=
  let s := s.i2cClearSda.i2cWaitForHighScl
  if s.internalTimeoutOccurred then s else { s.i2cReadSda with started := false }

def i2cStart : Master :=
  let s := (if s.started then s.i2cReadSda else s).i2cWaitForHighScl
  if s.internalTimeoutOccurred then s else { s.i2cClearSda.i2cClearScl with started := true }

def i2cWriteBit (b : Bool) : Master :=
  let s := (if b then s.i2cReadSda else s.i2cClearSda).i2cWaitForHighScl
  if s.internalTimeoutOccurred then s else s.i2cClearScl

def i2cReadBit : Bool × Master :=
  let s := s.i2cReadSda.i2cWaitForHighScl
  if s.internalTimeoutOccurred then (false, s)
  else (s.bus.i2cReadSda.1, s.i2cReadSda.i2cClearScl)

def writeBits : ℕ → UInt8 → Master → Master
  | 0, _, s => s
  | n + 1, byte, s =>
      let s := s.i2cWriteBit (byte &&& 0x80 != 0)
      if s.internalTimeoutOccurred then s else writeBits n (byte <<< 1) s

/-- What is returned (`true` for a NACK), and the state after the call. -/
def i2cWriteByte (byte : UInt8) : Bool × Master :=
  let s := writeBits 8 byte { s with internalTimeoutOccurred := false }
  if s.internalTimeoutOccurred then (false, s)
  else
    let bit := s.i2cReadBit
    if bit.2.internalTimeoutOccurred then (false, bit.2)
    else if bit.1 then (!bit.2.i2cStop.internalTimeoutOccurred, bit.2.i2cStop)
    else bit

def readBits : ℕ → UInt16 → Master → UInt16 × Master
  | 0, byte, s => (byte, s)
  | n + 1, byte, s =>
      let bit := s.i2cReadBit
      if bit.2.internalTimeoutOccurred then (0, bit.2)
      else readBits n (byte <<< 1 ||| if bit.1 then 1 else 0) bit.2

def i2cReadByte (nack : Bool) : UInt8 × Master :=
  let byte := readBits 8 0 { s with internalTimeoutOccurred := false }
  if byte.2.internalTimeoutOccurred then (0, byte.2)
  else
    let s := byte.2.i2cWriteBit nack
    (if s.internalTimeoutOccurred then 0 else byte.1.toUInt8, s)

/-! ### Timeouts -/

/-- Either nothing has timed out since `s`, or a timeout has ended the transaction. -/
def Outcome (s s' : Master) : Prop :=
  s'.internalTimeoutOccurred = false ∧ s'.started = s.started ∨
    s'.internalTimeoutOccurred = true ∧ s'.started = false

variable {s}

theorem i2cWaitForHighScl_bus (s : Master) :
    s.i2cWaitForHighScl.bus = (s.bus.waitForHighScl s.timeout).2 := by
  rw [i2cWaitForHighScl]
  split_ifs <;> rfl

theorem i2cWaitForHighScl_of_high (h : (s.bus.waitForHighScl s.timeout).1 = true) :
    s.i2cWaitForHighScl = { s with bus := (s.bus.waitForHighScl s.timeout).2 } := by
  rw [i2cWaitForHighScl]
  exact if_pos h

theorem i2cWaitForHighScl_of_low (h : (s.bus.waitForHighScl s.timeout).1 = false) :
    s.i2cWaitForHighScl.internalTimeoutOccurred = true ∧
      s.i2cWaitForHighScl.i2cTimeoutOccurred = true ∧ s.i2cWaitForHighScl.started = false := by
  have hneg : ¬(s.bus.waitForHighScl s.timeout).1 = true := by rw [h]; decide
  rw [i2cWaitForHighScl, if_neg hneg]
  exact ⟨rfl, rfl, rfl⟩

namespace Outcome

variable {s' t : Master}

theorem refl (h : s.internalTimeoutOccurred = false) : Outcome s s := .inl ⟨h, rfl⟩

/-- After a timeout nothing more is done. -/
theorem bind (h : Outcome s s') (hf : s'.internalTimeoutOccurred = false → Outcome s' t) :
    Outcome s (if s'.internalTimeoutOccurred then s' else t) := by
  rcases h with ⟨hi, hs⟩ | ⟨hi, hs⟩
  · rw [if_neg (Bool.eq_false_iff.mp hi)]
    rcases hf hi with ⟨hi', hs'⟩ | ht
    · exact .inl ⟨hi', hs'.trans hs⟩
    · exact .inr ht
  · rw [if_pos hi]
    exact .inr ⟨hi, hs⟩

theorem wait (h : s.internalTimeoutOccurred = false) : Outcome s s.i2cWaitForHighScl := by
  rcases hw : (s.bus.waitForHighScl s.timeout).1 with _ | _
  · obtain ⟨hi, -, hs⟩ := i2cWaitForHighScl_of_low hw
    exact .inr ⟨hi, hs⟩
  · rw [i2cWaitForHighScl_of_high hw]
    exact .inl ⟨h, rfl⟩

theorem writeBit (h : s.internalTimeoutOccurred = false) (b : Bool) :
    Outcome s (s.i2cWriteBit b) := by
  have hwait : Outcome s (if b then s.i2cReadSda else s.i2cClearSda).i2cWaitForHighScl := by
    cases b <;> exact wait (s := { s with bus := _ }) h
  exact hwait.bind refl

theorem readBit (h : s.internalTimeoutOccurred = false) : Outcome s s.i2cReadBit.2 := by
  have hwait : Outcome s s.i2cReadSda.i2cWaitForHighScl := wait (s := s.i2cReadSda) h
  have hbit := hwait.bind (t := s.i2cReadSda.i2cWaitForHighScl.i2cReadSda.i2cClearScl) refl
  rw [i2cReadBit]
  split_ifs at hbit ⊢ <;> exact hbit

theorem writeBits (n : ℕ) (byte : UInt8) (h : s.internalTimeoutOccurred = false) :
    Outcome s (Master.writeBits n byte s) := by
  induction n generalizing s byte with
  | zero => exact refl h
  | succ n ih => exact (writeBit h _).bind fun hi => ih (byte <<< 1) hi

theorem readBits (n : ℕ) (byte : UInt16) (h : s.internalTimeoutOccurred = false) :
    Outcome s (Master.readBits n byte s).2 := by
  induction n generalizing s byte with
  | zero => exact refl h
  | succ n ih =>
    have hbit := (readBit h).bind fun hi =>
      ih (byte <<< 1 ||| if s.i2cReadBit.1 then 1 else 0) hi
    rw [Master.readBits]
    split_ifs at hbit ⊢ <;> exact hbit

end Outcome

theorem wait_internal (h : s.internalTimeoutOccurred = true) :
    s.i2cWaitForHighScl.internalTimeoutOccurred = true ∧
      (s.i2cWaitForHighScl.started = true → s.started = true) := by
  rcases hw : (s.bus.waitForHighScl s.timeout).1 with _ | _
  · obtain ⟨hi, -, hs⟩ := i2cWaitForHighScl_of_low hw
    rw [hs]
    exact ⟨hi, fun hf => by cases hf⟩
  · rw [i2cWaitForHighScl_of_high hw]
    exact ⟨h, id⟩

theorem i2cStop_started (h : s.internalTimeoutOccurred = false) : s.i2cStop.started = false := by
  have hwait : Outcome s s.i2cClearSda.i2cWaitForHighScl := .wait (s := s.i2cClearSda) h
  rw [i2cStop]
  rcases hwait with ⟨hi, -⟩ | ⟨hi, hs⟩
  · rw [if_neg (Bool.eq_false_iff.mp hi)]
  · rw [if_pos hi]
    exact hs

theorem i2cStart_outcome (h : s.internalTimeoutOccurred = false) :
    s.i2cStart.internalTimeoutOccurred = false ∧ s.i2cStart.started = true ∨
      s.i2cStart.internalTimeoutOccurred = true ∧ s.i2cStart.started = false := by
  have hwait : Outcome s (if s.started then s.i2cReadSda else s).i2cWaitForHighScl := by
    split_ifs
    · exact .wait (s := s.i2cReadSda) h
    · exact .wait h
  rw [i2cStart]
  rcases hwait with ⟨hi, -⟩ | ⟨hi, hs⟩
  · rw [if_neg (Bool.eq_false_iff.mp hi)]
    exact .inl ⟨hi, rfl⟩
  · rw [if_pos hi]
    exact .inr ⟨hi, hs⟩

/-- A byte leaves the transaction as it is when it is acknowledged, and otherwise ends it. -/
theorem i2cWriteByte_outcome (s : Master) (byte : UInt8) :
    (s.i2cWriteByte byte).2.internalTimeoutOccurred = false ∧ (s.i2cWriteByte byte).1 = false ∧
        (s.i2cWriteByte byte).2.started = s.started ∨
      ((s.i2cWriteByte byte).2.internalTimeoutOccurred = true ∨
        (s.i2cWriteByte byte).1 = true) ∧ (s.i2cWriteByte byte).2.started = false := by
  have hbits := Outcome.writeBits (s := { s with internalTimeoutOccurred := false }) 8 byte rfl
  rw [i2cWriteByte]
  rcases hbits with ⟨hi, hs⟩ | ⟨hi, hs⟩
  · rw [if_neg (Bool.eq_false_iff.mp hi)]
    rcases Outcome.readBit hi with ⟨hi', hs'⟩ | ⟨hi', hs'⟩
    · rw [if_neg (Bool.eq_false_iff.mp hi')]
      split_ifs with hn
      · refine .inr ⟨?_, i2cStop_started hi'⟩
        rcases (Master.i2cReadBit _).2.i2cStop.internalTimeoutOccurred with _ | _
        · exact .inr rfl
        · exact .inl rfl
      · exact .inl ⟨hi', Bool.eq_false_iff.mpr hn, hs'.trans hs⟩
    · rw [if_pos hi']
      exact .inr ⟨.inl hi', hs'⟩
  · rw [if_pos hi]
    exact .inr ⟨.inl hi, hs⟩

theorem i2cReadByte_outcome (s : Master) (nack : Bool) :
    (s.i2cReadByte nack).2.internalTimeoutOccurred = false ∧
        (s.i2cReadByte nack).2.started = s.started ∨
      (s.i2cReadByte nack).2.internalTimeoutOccurred = true ∧
        (s.i2cReadByte nack).2.started = false := by
  have hbits := Outcome.readBits (s := { s with internalTimeoutOccurred := false }) 8 0 rfl
  rw [i2cReadByte]
  rcases hbits with ⟨hi, hs⟩ | ⟨hi, hs⟩
  · rw [if_neg (Bool.eq_false_iff.mp hi)]
    rcases Outcome.writeBit hi nack with ⟨hi', hs'⟩ | ht
    · exact .inl ⟨hi', hs'.trans hs⟩
    · exact .inr ht
  · rw [if_pos hi]
    exact .inr ⟨hi, hs⟩

/-- The flags between calls: nothing has timed out in a transaction that goes on. -/
def Consistent (s : Master) : Prop := s.started = true → s.internalTimeoutOccurred = false

namespace Consistent

theorem of_started (h : s.started = false) : s.Consistent := by
  intro hs
  rw [h] at hs
  cases hs

theorem started_of_timeout (h : s.Consistent) (hi : s.internalTimeoutOccurred = true) :
    s.started = false := by
  rcases hs : s.started with _ | _
  · rfl
  · rw [h hs] at hi
    cases hi

/-- After a timeout `i2cStart` does not begin a transaction. -/
theorem i2cStart_of_timeout (h : s.Consistent) (hi : s.internalTimeoutOccurred = true) :
    s.i2cStart.internalTimeoutOccurred = true ∧ s.i2cStart.started = false := by
  have hns := h.started_of_timeout hi
  obtain ⟨hi', hs'⟩ := wait_internal hi
  rw [Master.i2cStart, hns, if_neg Bool.false_ne_true, if_pos hi']
  rw [hns] at hs'
  exact ⟨hi', Bool.eq_false_iff.mpr fun hs => Bool.false_ne_true (hs' hs)⟩

theorem i2cStart_started_iff (h : s.Consistent) :
    s.i2cStart.started = true ↔ s.i2cStart.internalTimeoutOccurred = false := by
  rcases hi : s.internalTimeoutOccurred with _ | _
  · rcases i2cStart_outcome hi with ⟨hi', hs'⟩ | ⟨hi', hs'⟩
    · exact iff_of_true hs' hi'
    · rw [hi', hs']
      decide
  · obtain ⟨hi', hs'⟩ := h.i2cStart_of_timeout hi
    rw [hi', hs']
    decide

theorem i2cStop_started (h : s.Consistent) : s.i2cStop.started = false := by
  rcases hi : s.internalTimeoutOccurred with _ | _
  · exact Master.i2cStop_started hi
  · have hns := h.started_of_timeout hi
    obtain ⟨hi', hs'⟩ := wait_internal (s := s.i2cClearSda) hi
    rw [Master.i2cStop, if_pos hi']
    exact Bool.eq_false_iff.mpr fun hs => Bool.eq_false_iff.mp hns (hs' hs)

theorem i2cStop (h : s.Consistent) : s.i2cStop.Consistent := of_started h.i2cStop_started

theorem i2cStart (h : s.Consistent) : s.i2cStart.Consistent := fun hs =>
  h.i2cStart_started_iff.mp hs

theorem i2cWriteByte (s : Master) (byte : UInt8) : (s.i2cWriteByte byte).2.Consistent := by
  rcases i2cWriteByte_outcome s byte with ⟨hi, -⟩ | ⟨-, hs⟩
  · exact fun _ => hi
  · exact of_started hs

theorem i2cReadByte (s : Master) (nack : Bool) : (s.i2cReadByte nack).2.Consistent := by
  rcases i2cReadByte_outcome s nack with ⟨hi, -⟩ | ⟨-, hs⟩
  · exact fun _ => hi
  · exact of_started hs

end Consistent

end Master
end WixelSdk.I2c
