import WixelSdk.Ring
import WixelSdk.RadioMac
import WixelSdk.RadioLinkPacket
import Mathlib.Data.Int.Basic

/-!
# The radio queue layer

The variables and functions of `radio_queue.c`: two packet rings that the main loop shares with the
RF interrupt, without acknowledgements. `radioQueueTxSendPacket` is split where an interrupt matters:
before the index update the packet is invisible to the interrupt, after it the interrupt may send
the packet, and `radioMacStrobe` comes last.
-/

namespace WixelSdk.RadioQueue
open RadioMac
open RadioLink (Buf dmaStore)

/-- RADIO_QUEUE_PAYLOAD_SIZE, which is also RADIO_MAX_PACKET_SIZE -/
def maxPacketSize : ℕ := 19

def rxPacketCount : ℕ := 3

def txPacketCount : ℕ := 16

inductive Buffer
  | radioQueueTxPacket (i : ℕ)
  | radioQueueRxPacket (i : ℕ)
  deriving DecidableEq, Repr

structure Queue where
  mac : Mac Buffer
  radioQueueRxPacket : ℕ → Buf
  radioQueueRxMainLoopIndex : ℕ
  radioQueueRxInterruptIndex : ℕ
  radioQueueTxPacket : ℕ → Buf
  radioQueueTxMainLoopIndex : ℕ
  radioQueueTxInterruptIndex : ℕ
  radioQueueAllowCrcErrors : Bool
  channr : UInt8

namespace Queue

variable (q : Queue)

def powerUp : Queue where
  mac := .powerUp
  radioQueueRxPacket := fun _ _ => 0
  radioQueueRxMainLoopIndex := 0
  radioQueueRxInterruptIndex := 0
  radioQueueTxPacket := fun _ _ => 0
  radioQueueTxMainLoopIndex := 0
  radioQueueTxInterruptIndex := 0
  radioQueueAllowCrcErrors := false
  channr := 0

/-! ### General functions -/

def radioMacStrobe : Queue := { q with mac := q.mac.radioMacStrobe }

def radioQueueInit (param_radio_channel : UInt8) : Queue :=
  let q := { q with mac := { q.mac with pktlen := maxPacketSize }, channr := param_radio_channel }
  { q with mac := q.mac.radioMacInit }.radioMacStrobe

def randomTxDelay (random : UInt8) : ℕ := 1 + (random &&& 3).toNat

/-! ### TX functions, called in the main loop -/

/-- `& (TX_PACKET_COUNT - 1)` of an `int` is its remainder modulo TX_PACKET_COUNT. -/
def radioQueueTxAvailable : ℕ :=
  (((q.radioQueueTxInterruptIndex : ℤ) - q.radioQueueTxMainLoopIndex - 1) % txPacketCount).toNat

def radioQueueTxQueued : ℕ :=
  (((q.radioQueueTxMainLoopIndex : ℤ) - q.radioQueueTxInterruptIndex) % txPacketCount).toNat

/-- The ring slot of the packet that the main loop may write. -/
def radioQueueTxCurrentPacket : Option ℕ :=
  if q.radioQueueTxAvailable = 0 then none else some q.radioQueueTxMainLoopIndex

def storeTx (slot offset : ℕ) (b : UInt8) : Queue :=
  { q with
    radioQueueTxPacket := Function.update q.radioQueueTxPacket slot
      (Function.update (q.radioQueueTxPacket slot) offset b) }

def advanceTxMainLoopIndex : Queue :=
  { q with radioQueueTxMainLoopIndex := Ring.next txPacketCount q.radioQueueTxMainLoopIndex }

def radioQueueTxSendPacket : Queue := q.advanceTxMainLoopIndex.radioMacStrobe

/-! ### RX functions, called in the main loop -/

def radioQueueRxCurrentPacket : Option ℕ :=
  if q.radioQueueRxMainLoopIndex = q.radioQueueRxInterruptIndex then none
  else some q.radioQueueRxMainLoopIndex

def radioQueueRxDoneWithPacket : Queue :=
  { q with radioQueueRxMainLoopIndex := Ring.next rxPacketCount q.radioQueueRxMainLoopIndex }

/-! ### Functions called in the RF interrupt -/

def radioMacRx (packet : Buffer) (timeout : ℕ) : Queue :=
  { q with mac := q.mac.radioMacRx packet timeout }

def radioMacTx (packet : Buffer) : Queue := { q with mac := q.mac.radioMacTx packet }

def takeInitiative : Queue :=
  if q.radioQueueTxInterruptIndex ≠ q.radioQueueTxMainLoopIndex then
    q.radioMacTx (.radioQueueTxPacket q.radioQueueTxInterruptIndex)
  else q.radioMacRx (.radioQueueRxPacket q.radioQueueRxInterruptIndex) 0

def handleTx (random : UInt8) : Queue :=
  let q := { q with
    radioQueueTxInterruptIndex := Ring.next txPacketCount q.radioQueueTxInterruptIndex }
  q.radioMacRx (.radioQueueRxPacket q.radioQueueRxInterruptIndex) (randomTxDelay random)

def handleBadCrc (random : UInt8) : Queue :=
  if q.radioQueueTxInterruptIndex ≠ q.radioQueueTxMainLoopIndex then
    q.radioMacRx (.radioQueueRxPacket q.radioQueueRxInterruptIndex) (randomTxDelay random)
  else q.radioMacRx (.radioQueueRxPacket q.radioQueueRxInterruptIndex) 0

/-- Gives a packet that is not empty to the main loop, if that leaves a buffer to receive into. -/
def offerPacket : Queue :=
  if q.radioQueueRxPacket q.radioQueueRxInterruptIndex 0 > 0 ∧
      Ring.next rxPacketCount q.radioQueueRxInterruptIndex ≠ q.radioQueueRxMainLoopIndex then
    { q with
      radioQueueRxInterruptIndex := Ring.next rxPacketCount q.radioQueueRxInterruptIndex }
  else q

def handleRx (r : Readings) : Queue :=
  if q.radioQueueAllowCrcErrors = false ∧ r.crcPassed = false then q.handleBadCrc r.random
  else q.offerPacket.takeInitiative

def radioMacEventHandler (r : Readings) : MacEvent → Queue → Queue
  | .strobe, q => q.takeInitiative
  | .tx, q => q.handleTx r.random
  | .rx, q => q.handleRx r
  | .rxTimeout, q => q.takeInitiative

/-! ### The queue under the MAC layer -/

def client : Client Queue Buffer where
  mac q := q.mac
  setMac m q := { q with mac := m }
  radioMacEventHandler := radioMacEventHandler

def beforeHandler : Queue := { q with mac := q.mac.beforeHandler }

def radioMacEvent (r : Readings) (e : MacEvent) : Queue := client.radioMacEvent r e q

def isrRf (h : RfReadings) : Queue := client.isrRf h q

def buffer : Buffer → Buf
  | .radioQueueTxPacket i => q.radioQueueTxPacket i
  | .radioQueueRxPacket i => q.radioQueueRxPacket i

def setBuffer (buf : Buf) : Buffer → Queue
  | .radioQueueTxPacket i =>
      { q with radioQueueTxPacket := Function.update q.radioQueueTxPacket i buf }
  | .radioQueueRxPacket i =>
      { q with radioQueueRxPacket := Function.update q.radioQueueRxPacket i buf }

/-- The DMA channel stores bytes that the radio receives, when it is set up for that. -/
def dmaReceive (bytes : List UInt8) : Queue :=
  match q.mac.radioMacState, q.mac.dma with
  | .rx, some ⟨.rfd, .packet p, lenl, _⟩ => q.setBuffer (dmaStore lenl bytes (q.buffer p)) p
  | _, _ => q

def transmitting : Option Buffer :=
  match q.mac.radioMacState, q.mac.dma with
  | .tx, some ⟨.packet p, .rfd, _, _⟩ => some p
  | _, _ => none

def receiving : Option Buffer :=
  match q.mac.radioMacState, q.mac.dma with
  | .rx, some ⟨.rfd, .packet p, _, _⟩ => some p
  | _, _ => none

/-- The packets that the interrupt has still to send, as the ring holds them. -/
def txPackets : List Buf :=
  Ring.contents txPacketCount q.radioQueueTxPacket q.radioQueueTxInterruptIndex
    q.radioQueueTxMainLoopIndex

def rxPackets : List Buf :=
  Ring.contents rxPacketCount q.radioQueueRxPacket q.radioQueueRxMainLoopIndex
    q.radioQueueRxInterruptIndex

end Queue
end WixelSdk.RadioQueue
