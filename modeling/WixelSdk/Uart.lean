import WixelSdk.ByteRing
import WixelSdk.Transition

/-!
# The UART library

The buffers and functions of `uart.c`. The main loop and the two interrupts share a TX ring and an
RX ring of 256 bytes with 8-bit indices. A call of the main loop is taken in the steps between
which an interrupt can run: the byte is stored or read, then the index is updated, and after a send
the TX interrupt is enabled. `MainLoop` is the place between two such steps.

The history of a `Station` is the only addition, and no function reads it.
-/

namespace WixelSdk.Uart

structure Port where
  uartTxBuffer : UInt8 → UInt8
  uartTxBufferMainLoopIndex : UInt8
  uartTxBufferInterruptIndex : UInt8
  uartRxBuffer : UInt8 → UInt8
  uartRxBufferMainLoopIndex : UInt8
  uartRxBufferInterruptIndex : UInt8
  uartNRxParityErrorOccurred : Bool
  uartNRxFramingErrorOccurred : Bool
  uartNRxBufferFullOccurred : Bool
  utxnif : Bool
  urxnif : Bool
  bvUtxnie : Bool
  urxnie : Bool

namespace Port

variable (u : Port)

def powerUp : Port where
  uartTxBuffer := fun _ => 0
  uartTxBufferMainLoopIndex := 0
  uartTxBufferInterruptIndex := 0
  uartRxBuffer := fun _ => 0
  uartRxBufferMainLoopIndex := 0
  uartRxBufferInterruptIndex := 0
  uartNRxParityErrorOccurred := false
  uartNRxFramingErrorOccurred := false
  uartNRxBufferFullOccurred := false
  utxnif := false
  urxnif := false
  bvUtxnie := false
  urxnie := false

def uartNInit : Port :=
  { u with
    uartTxBufferMainLoopIndex := 0
    uartTxBufferInterruptIndex := 0
    uartRxBufferMainLoopIndex := 0
    uartRxBufferInterruptIndex := 0
    uartNRxParityErrorOccurred := false
    uartNRxFramingErrorOccurred := false
    uartNRxBufferFullOccurred := false
    utxnif := true
    urxnif := false
    urxnie := true }

/-- UART_TX_BUFFER_FREE_BYTES() -/
def uartNTxAvailable : UInt8 := u.uartTxBufferInterruptIndex - u.uartTxBufferMainLoopIndex - 1

/-- UART_RX_BUFFER_FREE_BYTES() -/
def rxBufferFreeBytes : UInt8 := u.uartRxBufferMainLoopIndex - u.uartRxBufferInterruptIndex - 1

/-- UART_RX_BUFFER_USED_BYTES() -/
def uartNRxAvailable : UInt8 := u.uartRxBufferInterruptIndex - u.uartRxBufferMainLoopIndex

/-! ### The steps of the main-loop functions -/

def storeTxByte (byte : UInt8) : Port :=
  { u with uartTxBuffer := Function.update u.uartTxBuffer u.uartTxBufferMainLoopIndex byte }

def advanceTxMainLoopIndex : Port :=
  { u with uartTxBufferMainLoopIndex := u.uartTxBufferMainLoopIndex + 1 }

/-- `IEN2 |= BV_UTXNIE` -/
def enableTxInterrupt : Port := { u with bvUtxnie := true }

def uartNTxSendByte (byte : UInt8) : Port :=
  (u.storeTxByte byte).advanceTxMainLoopIndex.enableTxInterrupt

def uartNTxSend : List UInt8 → Port → Port
  | [], u => u
  | byte :: buffer, u => uartNTxSend buffer (u.uartNTxSendByte byte)

def currentRxByte : UInt8 := u.uartRxBuffer u.uartRxBufferMainLoopIndex

def advanceRxMainLoopIndex : Port :=
  { u with uartRxBufferMainLoopIndex := u.uartRxBufferMainLoopIndex + 1 }

def uartNRxReceiveByte : UInt8 × Port := (u.currentRxByte, u.advanceRxMainLoopIndex)

/-! ### The interrupts -/

/-- ISR_UTX() and the byte that it writes to UNDBUF, if any. -/
def isrUtx : Port × Option UInt8 :=
  if u.uartTxBufferInterruptIndex ≠ u.uartTxBufferMainLoopIndex then
    ({ u with
      utxnif := false
      uartTxBufferInterruptIndex := u.uartTxBufferInterruptIndex + 1 },
      some (u.uartTxBuffer u.uartTxBufferInterruptIndex))
  else ({ u with bvUtxnie := false }, none)

/-- UNCSR.FE and UNCSR.ERR are clear. -/
def noErrors (csr : UInt8) : Prop := csr &&& 0x18 = 0

instance (csr : UInt8) : Decidable (noErrors csr) := inferInstanceAs (Decidable (_ = _))

/-- ISR_URX(), reading UNCSR and UNDBUF. -/
def isrUrx (csr undbuf : UInt8) : Port :=
  if noErrors csr then
    if u.rxBufferFreeBytes ≠ 0 then
      { u with
        urxnif := false
        uartRxBuffer := Function.update u.uartRxBuffer u.uartRxBufferInterruptIndex undbuf
        uartRxBufferInterruptIndex := u.uartRxBufferInterruptIndex + 1 }
    else { u with urxnif := false, uartNRxBufferFullOccurred := true }
  else
    { u with
      urxnif := false
      uartNRxFramingErrorOccurred := u.uartNRxFramingErrorOccurred || csr &&& 0x10 != 0
      uartNRxParityErrorOccurred := u.uartNRxParityErrorOccurred || csr &&& 0x08 != 0 }

/-- The bytes still to be transmitted, as the ring holds them. -/
def txBytes : List UInt8 := ByteRing.contents u.uartTxBuffer u.uartTxBufferInterruptIndex
  u.uartTxBufferMainLoopIndex

def rxBytes : List UInt8 := ByteRing.contents u.uartRxBuffer u.uartRxBufferMainLoopIndex
  u.uartRxBufferInterruptIndex

end Port

/-- The place of the main loop, with the bytes that its call has still to send. -/
inductive MainLoop
  | idle
  | sending (buffer : List UInt8)
  | stored (byte : UInt8) (buffer : List UInt8)
  | advanced (buffer : List UInt8)
  | receiving (byte : UInt8)
  deriving DecidableEq, Repr

/-- The bytes of the present call that are not in the TX ring yet. -/
def MainLoop.unsent : MainLoop → List UInt8
  | .sending buffer => buffer
  | .stored byte buffer => byte :: buffer
  | .advanced buffer => buffer
  | _ => []

def MainLoop.toReturn : MainLoop → ℕ
  | .receiving _ => 1
  | _ => 0

/-- `arrived` carries UNCSR, UNDBUF and the number of bytes in the RX ring. -/
inductive UartEvent
  | sent (buffer : List UInt8)
  | transmitted (byte : UInt8)
  | arrived (csr undbuf : UInt8) (used : ℕ)
  | returned (byte : UInt8)
  | cleared
  deriving DecidableEq, Repr

abbrev History := List UartEvent

namespace History

def sentBytes : UartEvent → List UInt8
  | .sent buffer => buffer
  | _ => []

def transmitted? : UartEvent → Option UInt8
  | .transmitted byte => some byte
  | _ => none

def accepted? : UartEvent → Option UInt8
  | .arrived csr undbuf used => if Port.noErrors csr ∧ used < 255 then some undbuf else none
  | _ => none

def returned? : UartEvent → Option UInt8
  | .returned byte => some byte
  | _ => none

/-- Whether a byte has been dropped for lack of space, given whether one had been before. -/
def overflow (dropped : Bool) : UartEvent → Bool
  | .arrived csr _ used => dropped || decide (Port.noErrors csr ∧ ¬ used < 255)
  | .cleared => false
  | _ => dropped

variable (h : History)

def sent : List UInt8 := h.flatMap sentBytes

def transmitted : List UInt8 := h.filterMap transmitted?

def accepted : List UInt8 := h.filterMap accepted?

def returned : List UInt8 := h.filterMap returned?

/-- A byte was dropped for lack of space since uartNRxBufferFullOccurred was cleared last. -/
def overflowed : Bool := h.foldl overflow false

end History

structure Station where
  uart : Port
  mainLoop : MainLoop
  txPromised : ℕ
  rxPromised : ℕ
  history : History

/-- `next` is the next step of the call that the main loop is in, and `txFlag` is the hardware
asking for another byte. -/
inductive Action
  | txAvailable
  | txSend (buffer : List UInt8)
  | txSendByte (byte : UInt8)
  | rxAvailable
  | rxReceiveByte
  | clearRxBufferFull
  | next
  | txFlag
  | isrUtx
  | isrUrx (csr undbuf : UInt8)
  deriving DecidableEq, Repr

namespace Station

variable (s : Station)

def init : Station where
  uart := Port.powerUp.uartNInit
  mainLoop := .idle
  txPromised := 0
  rxPromised := 0
  history := []

def startSend (buffer : List UInt8) : Station :=
  { s with
    mainLoop := .sending buffer
    txPromised := s.txPromised - buffer.length
    history := s.history ++ [.sent buffer] }

def next : Option Station :=
  match s.mainLoop with
  | .idle => none
  | .sending [] => some { s with mainLoop := .idle }
  | .sending (byte :: buffer) =>
      some { s with uart := s.uart.storeTxByte byte, mainLoop := .stored byte buffer }
  | .stored _ buffer =>
      some { s with uart := s.uart.advanceTxMainLoopIndex, mainLoop := .advanced buffer }
  | .advanced buffer =>
      some { s with uart := s.uart.enableTxInterrupt, mainLoop := .sending buffer }
  | .receiving byte =>
      some { s with
        uart := s.uart.advanceRxMainLoopIndex
        mainLoop := .idle
        history := s.history ++ [.returned byte] }

def transmit : Station :=
  { s with
    uart := s.uart.isrUtx.1
    history := s.history ++ (s.uart.isrUtx.2.map UartEvent.transmitted).toList }

def receive (csr undbuf : UInt8) : Station :=
  { s with
    uart := s.uart.isrUrx csr undbuf
    history := s.history ++ [.arrived csr undbuf s.uart.uartNRxAvailable.toNat] }

/-- A call that the main loop makes only between two others. -/
def call (t : Station) : Option Station := if s.mainLoop = .idle then some t else none

def step : Action → Option Station
  | .txAvailable => s.call { s with txPromised := s.uart.uartNTxAvailable.toNat }
  | .txSend buffer => s.call (s.startSend buffer)
  | .txSendByte byte => s.call (s.startSend [byte])
  | .rxAvailable => s.call { s with rxPromised := s.uart.uartNRxAvailable.toNat }
  | .rxReceiveByte => s.call { s with
      mainLoop := .receiving s.uart.currentRxByte
      rxPromised := s.rxPromised - 1 }
  | .clearRxBufferFull => s.call { s with
      uart := { s.uart with uartNRxBufferFullOccurred := false }
      history := s.history ++ [.cleared] }
  | .next => s.next
  | .txFlag => some { s with uart := { s.uart with utxnif := true } }
  | .isrUtx => if s.uart.bvUtxnie ∧ s.uart.utxnif then some s.transmit else none
  | .isrUrx csr undbuf => if s.uart.urxnie then some (s.receive csr undbuf) else none

/-- The rule of uart0.h: no more bytes are sent or read than the last call of uartNTxAvailable() or
uartNRxAvailable() returned. -/
def Documented : Action → Prop
  | .txSend buffer => buffer.length ≤ s.txPromised
  | .txSendByte _ => 1 ≤ s.txPromised
  | .rxReceiveByte => 1 ≤ s.rxPromised
  | _ => True

instance (a : Action) : Decidable (s.Documented a) := by
  rcases a with ⟨⟩ <;> dsimp only [Documented] <;> infer_instance

end Station
end WixelSdk.Uart
