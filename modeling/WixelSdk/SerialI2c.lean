import Mathlib.Data.Int.Notation
import WixelSdk.I2cRecovery

/-!
# The serial-to-I2C bridge

`serial_i2c.c`: a parser of command bytes that drives the I2C library. The parser has a `started`
flag of its own, and it goes on to the length and the data whatever happens on the bus.
-/

namespace WixelSdk.SerialI2c
open I2c Transition

def cmdStart : UInt8 := 83
def cmdStop : UInt8 := 80
def cmdGetErrors : UInt8 := 69

def errI2cNackAddress : UInt8 := (1 : UInt8) <<< 0
def errI2cNackData : UInt8 := (1 : UInt8) <<< 1
def errI2cTimeout : UInt8 := (1 : UInt8) <<< 2
def errCmdInvalid : UInt8 := (1 : UInt8) <<< 3
def errCmdTimeout : UInt8 := (1 : UInt8) <<< 4
def errUartOverflow : UInt8 := (1 : UInt8) <<< 5
def errUartFraming : UInt8 := (1 : UInt8) <<< 6

inductive I2cState
  | idle
  | getAddr
  | getLen
  | getData
  deriving DecidableEq

/-- `atByte` are the values that the `started` flag of the library had at the calls of
`i2cWriteByte` and `i2cReadByte`. -/
structure Bridge where
  lib : Master
  errors : UInt8
  response : UInt8
  returnResponse : Bool
  state : I2cState
  started : Bool
  dataDirIsRead : Bool
  dataLength : UInt8
  lastCmd : ℕ
  atByte : List Bool

/-- What a call of `i2cService` meets: the time and the slave since the call before, what the slave
does during the call, the byte that has been received, and whether a byte can be sent. -/
structure Service where
  before : Turn
  turns : List Turn
  rx : Option UInt8
  txAvailable : Bool
  deriving DecidableEq

namespace Bridge

variable (b : Bridge)

def getMs : ℕ := b.lib.bus.wires.ms % 2 ^ 32

def raise (error : UInt8) : Bridge := { b with errors := b.errors ||| error }

/-- A call of `i2cWriteByte`, after which the bridge has not looked at the result. -/
def writeByte (byte : UInt8) : Bridge :=
  { b with lib := (b.lib.i2cWriteByte byte).2, atByte := b.lib.started :: b.atByte }

def clearTimeout : Bridge := { b with lib := { b.lib with i2cTimeoutOccurred := false } }

/-- What the bridge does about the result of `i2cWriteByte`. -/
def checkWrite (nack : Bool) (errNack : UInt8) : Bridge :=
  if b.lib.i2cTimeoutOccurred then (b.raise errI2cTimeout).clearTimeout
  else if nack then b.raise errNack
  else b

def countDown : Bridge :=
  { b with
    dataLength := b.dataLength - 1
    state := if b.dataLength - 1 == 0 then .idle else b.state }

def parseCmd (byte : UInt8) : Bridge :=
  match b.state with
  | .idle =>
      if byte = cmdGetErrors then
        { b with response := b.errors, returnResponse := true, errors := 0 }
      else if byte = cmdStart then
        { b with lib := b.lib.i2cStart, started := true, state := .getAddr }
      else if byte = cmdStop ∧ b.started = true then
        { b with lib := b.lib.i2cStop, started := false }
      else b.raise errCmdInvalid
  | .getAddr =>
      { ({ b with dataDirIsRead := byte &&& 1 != 0 }.writeByte byte).checkWrite
          (b.lib.i2cWriteByte byte).1 errI2cNackAddress with state := .getLen }
  | .getLen =>
      { b with dataLength := byte, state := if byte > 0 then .getData else .idle }
  | .getData =>
      if b.dataDirIsRead then b.raise errCmdInvalid
      else ((b.writeByte byte).checkWrite (b.lib.i2cWriteByte byte).1 errI2cNackData).countDown

def i2cRead : Bridge :=
  let result := b.lib.i2cReadByte (b.dataLength == 1)
  let b := { b with lib := result.2, atByte := b.lib.started :: b.atByte }
  let b :=
    if b.lib.i2cTimeoutOccurred then
      { (b.raise errI2cTimeout).clearTimeout with response := 0 }
    else { b with response := result.1 }
  { b.countDown with returnResponse := true }

def cmdTimedOut (cmdTimeoutMs : ℤ) : Prop :=
  b.started = true ∧ cmdTimeoutMs > 0 ∧
    (((b.getMs + 2 ^ 32 - b.lastCmd) % 2 ^ 16 : ℕ) : ℤ) > cmdTimeoutMs

instance (cmdTimeoutMs : ℤ) : Decidable (b.cmdTimedOut cmdTimeoutMs) := by
  unfold cmdTimedOut
  infer_instance

def process (cmdTimeoutMs : ℤ) (rx : Option UInt8) : Bridge :=
  if b.dataDirIsRead ∧ b.state = .getData then b.i2cRead
  else
    match rx with
    | some byte => { b.parseCmd byte with lastCmd := (b.parseCmd byte).getMs % 2 ^ 16 }
    | none =>
        if b.cmdTimedOut cmdTimeoutMs then
          { b.raise errCmdTimeout with lib := b.lib.i2cStop, started := false }
        else b

def meet (a : Service) : Bridge :=
  { b with lib := { b.lib with bus := { b.lib.bus.slaveTurn a.before with turns := a.turns } } }

def respond (txAvailable : Bool) : Bridge :=
  if b.returnResponse && txAvailable then { b with returnResponse := false } else b

def i2cService (cmdTimeoutMs : ℤ) (a : Service) : Bridge :=
  (if b.returnResponse then b.meet a else (b.meet a).process cmdTimeoutMs a.rx).respond
    a.txAvailable

def uartCheckErrors (bufferFull framingError : Bool) : Bridge :=
  let b := if bufferFull then b.raise errUartOverflow else b
  if framingError then b.raise errUartFraming else b

end Bridge

inductive Action
  | i2cService (a : Service)
  | uartCheckErrors (bufferFull framingError : Bool)

namespace Bridge

def step (cmdTimeoutMs : ℤ) (b : Bridge) : Action → Option Bridge
  | .i2cService a => some (b.i2cService cmdTimeoutMs a)
  | .uartCheckErrors bufferFull framingError => some (b.uartCheckErrors bufferFull framingError)

def start (slaveScl slaveSda : Bool) (timeoutMs : UInt16) : Bridge where
  lib := (Master.powerUp slaveScl slaveSda).i2cSetTimeout timeoutMs
  errors := 0
  response := 0
  returnResponse := false
  state := .idle
  started := false
  dataDirIsRead := false
  dataLength := 0
  lastCmd := 0
  atByte := []

/-! ### What a call leaves alone -/

section Frame

variable (b : Bridge) (byte : UInt8) (nack : Bool) (error : UInt8)

@[simp] theorem checkWrite_state : (b.checkWrite nack error).state = b.state := by
  unfold checkWrite
  split_ifs <;> rfl

@[simp] theorem checkWrite_started : (b.checkWrite nack error).started = b.started := by
  unfold checkWrite
  split_ifs <;> rfl

@[simp] theorem checkWrite_dataLength : (b.checkWrite nack error).dataLength = b.dataLength := by
  unfold checkWrite
  split_ifs <;> rfl

@[simp] theorem checkWrite_lib_started :
    (b.checkWrite nack error).lib.started = b.lib.started := by
  unfold checkWrite
  split_ifs <;> rfl

@[simp] theorem checkWrite_atByte : (b.checkWrite nack error).atByte = b.atByte := by
  unfold checkWrite
  split_ifs <;> rfl

@[simp] theorem respond_state (txAvailable : Bool) : (b.respond txAvailable).state = b.state := by
  unfold respond
  split_ifs <;> rfl

@[simp] theorem respond_started (txAvailable : Bool) :
    (b.respond txAvailable).started = b.started := by
  unfold respond
  split_ifs <;> rfl

@[simp] theorem respond_lib (txAvailable : Bool) : (b.respond txAvailable).lib = b.lib := by
  unfold respond
  split_ifs <;> rfl

@[simp] theorem respond_atByte (txAvailable : Bool) :
    (b.respond txAvailable).atByte = b.atByte := by
  unfold respond
  split_ifs <;> rfl

theorem i2cRead_started : b.i2cRead.started = b.started := by
  unfold i2cRead
  dsimp only
  split_ifs <;> rfl

end Frame

variable {b : Bridge} {cmdTimeoutMs : ℤ} {rx : Option UInt8} {a : Service}

theorem process_of_read (h : b.dataDirIsRead ∧ b.state = .getData) :
    b.process cmdTimeoutMs rx = b.i2cRead := if_pos h

theorem process_of_byte (h : ¬(b.dataDirIsRead ∧ b.state = .getData)) (byte : UInt8) :
    b.process cmdTimeoutMs (some byte) =
      { b.parseCmd byte with lastCmd := (b.parseCmd byte).getMs % 2 ^ 16 } := if_neg h

theorem process_of_none (h : ¬(b.dataDirIsRead ∧ b.state = .getData)) :
    b.process cmdTimeoutMs none =
      if b.cmdTimedOut cmdTimeoutMs then
        { b.raise errCmdTimeout with lib := b.lib.i2cStop, started := false }
      else b := if_neg h

/-- The call stops the bus because the command has timed out. -/
def TimesOut (b : Bridge) (cmdTimeoutMs : ℤ) (rx : Option UInt8) : Prop :=
  ¬(b.dataDirIsRead ∧ b.state = .getData) ∧ rx = none ∧ b.cmdTimedOut cmdTimeoutMs

instance (rx : Option UInt8) : Decidable (b.TimesOut cmdTimeoutMs rx) := by
  unfold TimesOut
  infer_instance

/-! ### The parser after a command timeout -/

/-- Without a transaction the parser waits for a command. -/
def Synced (b : Bridge) : Prop := b.started = false → b.state = .idle

/-- A command times out only when the parser waits for a command. -/
def TimeoutInIdle (cmdTimeoutMs : ℤ) (b : Bridge) : Action → Prop
  | .i2cService a =>
      b.returnResponse = false → (b.meet a).TimesOut cmdTimeoutMs a.rx → b.state = .idle
  | .uartCheckErrors _ _ => True

instance (b : Bridge) (a : Action) : Decidable (b.TimeoutInIdle cmdTimeoutMs a) := by
  rcases a with ⟨⟩ <;> dsimp only [TimeoutInIdle] <;> infer_instance

namespace Synced

/-- The flag changes only where commands are read. -/
theorem parseCmd_started (byte : UInt8) (h : b.state ≠ .idle) :
    (b.parseCmd byte).started = b.started := by
  unfold Bridge.parseCmd
  rcases hstate : b.state with _ | _ | _ | _
  · exact absurd hstate h
  · exact checkWrite_started _ _ _
  · rfl
  · dsimp only
    split_ifs
    · rfl
    · exact checkWrite_started _ _ _

theorem parseCmd_idle (byte : UInt8) (h : b.state = .idle)
    (hs : (b.parseCmd byte).started = false) : (b.parseCmd byte).state = .idle := by
  unfold Bridge.parseCmd at hs ⊢
  rw [h] at hs ⊢
  dsimp only at hs ⊢
  split_ifs at hs ⊢ <;> first | rfl | exact h

theorem parseCmd (h : b.Synced) (byte : UInt8) : (b.parseCmd byte).Synced := by
  intro hs
  by_cases hidle : b.state = .idle
  · exact parseCmd_idle byte hidle hs
  · rw [parseCmd_started byte hidle] at hs
    exact absurd (h hs) hidle

theorem i2cRead (h : b.Synced) (hread : b.state = .getData) : b.i2cRead.Synced := by
  intro hs
  rw [i2cRead_started] at hs
  rw [h hs] at hread
  cases hread

/-- What a call does keeps the parser synchronised exactly when it is not a timeout elsewhere. -/
theorem process_iff (h : b.Synced) :
    (b.process cmdTimeoutMs rx).Synced ↔ (b.TimesOut cmdTimeoutMs rx → b.state = .idle) := by
  by_cases hread : b.dataDirIsRead ∧ b.state = .getData
  · rw [process_of_read hread]
    exact iff_of_true (h.i2cRead hread.2) fun ht => absurd hread ht.1
  rcases rx with _ | byte
  · rw [process_of_none hread]
    by_cases ht : b.cmdTimedOut cmdTimeoutMs
    · rw [if_pos ht]
      exact ⟨fun hs _ => hs rfl, fun hs _ => hs ⟨hread, rfl, ht⟩⟩
    · rw [if_neg ht]
      exact iff_of_true h fun hto => absurd hto.2.2 ht
  · rw [process_of_byte hread]
    exact iff_of_true (h.parseCmd byte) fun hto => by cases hto.2.1

theorem i2cService_iff (h : b.Synced) (a : Service) :
    (b.i2cService cmdTimeoutMs a).Synced ↔ b.TimeoutInIdle cmdTimeoutMs (.i2cService a) := by
  have hmeet : (b.meet a).Synced := h
  rw [i2cService, Synced, respond_started, respond_state]
  rcases hr : b.returnResponse with _ | _
  · rw [if_neg Bool.false_ne_true]
    exact hmeet.process_iff.trans ⟨fun hs _ => hs, fun hs => hs hr⟩
  · rw [if_pos rfl]
    refine iff_of_true hmeet fun hf => ?_
    rw [hr] at hf
    cases hf

theorem step_iff {t : Bridge} {a : Action} (h : b.Synced) (hs : b.step cmdTimeoutMs a = some t) :
    t.Synced ↔ b.TimeoutInIdle cmdTimeoutMs a := by
  cases a with
  | i2cService a =>
    cases hs
    exact h.i2cService_iff a
  | uartCheckErrors bufferFull framingError =>
    cases hs
    refine iff_of_true ?_ trivial
    cases bufferFull <;> cases framingError <;> exact h

end Synced

/-- As long as commands time out only when the parser waits for a command, it waits for one
whenever its own flag is clear; and it is the other timeouts that break this. -/
theorem run_synced {slaveScl slaveSda : Bool} {timeoutMs : UInt16}
    (hr : Run (step cmdTimeoutMs) (TimeoutInIdle cmdTimeoutMs)
      (start slaveScl slaveSda timeoutMs) b) :
    b.Synced ∧ ∀ a t, b.step cmdTimeoutMs a = some t →
      (t.Synced ↔ b.TimeoutInIdle cmdTimeoutMs a) := by
  have h : b.Synced := hr.invariant (fun _ => rfl) fun _ _ _ h hc hs => (h.step_iff hs).mpr hc
  exact ⟨h, fun _ _ hs => h.step_iff hs⟩

/-- A start and, 600 ms later, nothing more in a command of length 0. -/
theorem run_synced_zero :
    ∃ b : Bridge, (b.Synced ∧ ∀ a t, b.step 500 a = some t →
      (t.Synced ↔ b.TimeoutInIdle 500 a)) ∧ b.started = false ∧ b.errors = 17 := by
  have hrun : (exec (step 500) (TimeoutInIdle 500) (start false false 10)
      [.i2cService ⟨[], [], some cmdStart, true⟩, .i2cService ⟨[], [], some 7, true⟩,
        .i2cService ⟨[], [], some 0, true⟩,
        .i2cService ⟨[⟨600, false, false⟩], [], none, true⟩]).map
          (fun b => (b.started, b.errors)) = some (false, 17) := by
    decide +kernel
  obtain ⟨b, hr, hv⟩ := exists_run_of_exec hrun
  simp only [Prod.mk.injEq] at hv
  exact ⟨b, run_synced hr, hv⟩

/-- A command that times out after its start: the next byte is taken for an address. -/
theorem not_run_synced_of_timeout :
    ¬∀ b : Bridge, Run (step 500) (fun _ _ => True) (start false false 10) b → b.Synced := by
  intro hall
  have hrun : (exec (step 500) (fun _ _ => True) (start false false 10)
      [.i2cService ⟨[], [], some cmdStart, true⟩,
        .i2cService ⟨[⟨600, false, false⟩], [], none, true⟩]).map
          (fun b => (b.started, b.state)) = some (false, .getAddr) := by
    decide +kernel
  obtain ⟨b, hr, hv⟩ := exists_run_of_exec hrun
  simp only [Prod.mk.injEq] at hv
  have hidle := hall b hr hv.1
  rw [hv.2] at hidle
  cases hidle

end Bridge
end WixelSdk.SerialI2c
