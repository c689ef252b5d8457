import WixelSdk.Ring
import WixelSdk.RadioMac
import WixelSdk.RadioLinkPacket
import Mathlib.Data.Int.Basic

/-!
# The radio link layer

The variables and functions of `radio_link.c`: the two packet rings, the main-loop functions and the
interrupt handler. `history` and `frame` are the only additions, and no function reads them: they
record what passed through the link and what was handed to `radioMacTx` last.

`radioLinkTxSendPacket` is split where an interrupt matters: before the index update the packet is
invisible to the interrupt, after it the interrupt may send the packet, and `radioMacStrobe` comes
last.
-/

namespace WixelSdk.RadioLink
open RadioMac StopAndWait

inductive Buffer
  | shortTxPacket
  | radioLinkTxPacket (i : ℕ)
  | radioLinkRxPacket (i : ℕ)
  deriving DecidableEq, Repr

/-- `queued` carries radioLinkTxQueued() before and after the call, `released` the number of
buffers the main loop owned before it. -/
inductive LinkEvent
  | queued (before after : ℕ) (p : Packet)
  | accepted (p : Packet)
  | released (owned : ℕ) (p : Packet)
  | resetReceived
  deriving DecidableEq, Repr

namespace LinkEvent

def sent? : LinkEvent → Option Packet
  | .queued _ _ p => some p
  | _ => none

def accepted? : LinkEvent → Option Packet
  | .accepted p => some p
  | _ => none

def received? : LinkEvent → Option Packet
  | .released _ p => some p
  | _ => none

end LinkEvent

structure Node where
  mac : Mac Buffer
  radioLinkRxPacket : ℕ → Buf
  radioLinkRxMainLoopIndex : ℕ
  radioLinkRxInterruptIndex : ℕ
  radioLinkTxPacket : ℕ → Buf
  radioLinkTxMainLoopIndex : ℕ
  radioLinkTxInterruptIndex : ℕ
  shortTxPacket : Buf
  radioLinkTxCurrentPacketTries : ℕ
  sendingReset : Bool
  acceptAnySequenceBit : Bool
  radioLinkResetPacketReceived : Bool
  rxSequenceBit : Bool
  txSequenceBit : Bool
  radioLinkActivityOccurred : Bool
  channr : UInt8
  history : List LinkEvent
  frame : Buf

namespace Node

variable (n : Node)

/-- The static variables before `radioLinkInit`. -/
def powerUp : Node where
  mac := .powerUp
  radioLinkRxPacket := fun _ _ => 0
  radioLinkRxMainLoopIndex := 0
  radioLinkRxInterruptIndex := 0
  radioLinkTxPacket := fun _ _ => 0
  radioLinkTxMainLoopIndex := 0
  radioLinkTxInterruptIndex := 0
  shortTxPacket := fun _ => 0
  radioLinkTxCurrentPacketTries := 0
  sendingReset := false
  acceptAnySequenceBit := false
  radioLinkResetPacketReceived := false
  rxSequenceBit := false
  txSequenceBit := false
  radioLinkActivityOccurred := false
  channr := 0
  history := []
  frame := fun _ => 0

def record (e : LinkEvent) : Node := { n with history := n.history ++ [e] }

/-! ### General functions -/

def radioMacStrobe : Node := { n with mac := n.mac.radioMacStrobe }

def radioLinkInit (param_radio_channel : UInt8) : Node :=
  let n := { n with rxSequenceBit := true, txSequenceBit := false }
  let n := { n with mac := { n.mac with pktlen := maxPacketSize }, channr := param_radio_channel }
  let n := { n with acceptAnySequenceBit := true, mac := n.mac.radioMacInit }
  { n with sendingReset := true }.radioMacStrobe

def radioLinkTxQueueReset : Node :=
  { n with radioLinkTxInterruptIndex := n.radioLinkTxMainLoopIndex }

/-- Without interrupts during the call. Neither radioMacState nor the DMA channel is reset: a frame
that was in transmission is still in transmission on the new channel. -/
def radioLinkChangeChannel (channel : UInt8) : Node :=
  let n := { n with mac := { n.mac with rfst := .stx }, channr := channel }
  let n := { n with acceptAnySequenceBit := true, rxSequenceBit := true, txSequenceBit := false }
  let n := { n with
    radioLinkRxInterruptIndex := n.radioLinkRxMainLoopIndex
    radioLinkTxInterruptIndex := n.radioLinkTxMainLoopIndex
    radioLinkTxCurrentPacketTries := 0 }
  { n with sendingReset := true }.radioMacStrobe

def randomTxDelay (random : UInt8) : ℕ :=
  (if n.radioLinkTxCurrentPacketTries > 200 then 250 else 1) + (random &&& 3).toNat

def radioLinkConnected : Bool := !n.sendingReset

/-! ### TX functions, called in the main loop -/

/-- `& (TX_PACKET_COUNT - 1)` of an `int` is its remainder modulo TX_PACKET_COUNT. -/
def radioLinkTxAvailable : ℕ :=
  (((n.radioLinkTxInterruptIndex : ℤ) - n.radioLinkTxMainLoopIndex - 1) % txPacketCount).toNat

def radioLinkTxQueued : ℕ :=
  (((n.radioLinkTxMainLoopIndex : ℤ) - n.radioLinkTxInterruptIndex) % txPacketCount).toNat

/-- The ring slot of the current TX packet; its payload length is at offset 1. -/
def radioLinkTxCurrentPacket : Option ℕ :=
  if n.radioLinkTxAvailable = 0 then none else some n.radioLinkTxMainLoopIndex

/-- Stores one byte of a TX packet, at an offset from the start of its buffer. -/
def storeTx (slot offset : ℕ) (b : UInt8) : Node :=
  { n with
    radioLinkTxPacket := Function.update n.radioLinkTxPacket slot
      (Function.update (n.radioLinkTxPacket slot) offset b) }

/-- The length and header bytes written by `radioLinkTxSendPacket`. -/
def writeTxHeader (payloadType : UInt8) : Node :=
  let i := n.radioLinkTxMainLoopIndex
  let n := n.storeTx i 0 (n.radioLinkTxPacket i 1 + 1)
  n.storeTx i 1 (payloadType <<< 1)

/-- The index update of `radioLinkTxSendPacket`. -/
def advanceTxMainLoopIndex : Node :=
  let next := { n with
    radioLinkTxMainLoopIndex := Ring.next txPacketCount n.radioLinkTxMainLoopIndex }
  next.record (.queued n.radioLinkTxQueued next.radioLinkTxQueued
    (txPacketOf (n.radioLinkTxPacket n.radioLinkTxMainLoopIndex)))

def radioLinkTxSendPacket (payloadType : UInt8) : Node :=
  ((n.writeTxHeader payloadType).advanceTxMainLoopIndex).radioMacStrobe

/-! ### RX functions, called in the main loop -/

def rxOwned : ℕ :=
  Ring.count rxPacketCount n.radioLinkRxMainLoopIndex n.radioLinkRxInterruptIndex

/-- The ring slot of the current RX packet; its payload length is at offset 1. -/
def radioLinkRxCurrentPacket : Option ℕ :=
  if n.radioLinkRxMainLoopIndex = n.radioLinkRxInterruptIndex then none
  else some n.radioLinkRxMainLoopIndex

def radioLinkRxCurrentPayloadType : UInt8 := n.radioLinkRxPacket n.radioLinkRxMainLoopIndex 0

def radioLinkRxDoneWithPacket : Node :=
  let next := { n with
    radioLinkRxMainLoopIndex := Ring.next rxPacketCount n.radioLinkRxMainLoopIndex }
  next.record
    (.released n.rxOwned (rxPacketOf (n.radioLinkRxPacket n.radioLinkRxMainLoopIndex)))

/-! ### Functions called in the RF interrupt -/

def radioMacRx (packet : Buffer) (timeout : ℕ) : Node :=
  { n with mac := n.mac.radioMacRx packet timeout }

def buffer : Buffer → Buf
  | .shortTxPacket => n.shortTxPacket
  | .radioLinkTxPacket i => n.radioLinkTxPacket i
  | .radioLinkRxPacket i => n.radioLinkRxPacket i

def radioMacTx (packet : Buffer) : Node :=
  { n with mac := n.mac.radioMacTx packet, frame := n.buffer packet }

def countTry : Node :=
  { n with
    radioLinkTxCurrentPacketTries := if n.radioLinkTxCurrentPacketTries < 255 then
      n.radioLinkTxCurrentPacketTries + 1 else n.radioLinkTxCurrentPacketTries }

def txShortPacket (packetType : UInt8) : Node :=
  let n := { n with
    shortTxPacket := Function.update (Function.update n.shortTxPacket 0 1) 1 packetType }
  n.radioMacTx .shortTxPacket

def txResetPacket : Node := (n.txShortPacket (packetType .reset)).countTry

def txDataPacket (packetType : UInt8) : Node :=
  let i := n.radioLinkTxInterruptIndex
  let n := n.storeTx i 1 (header (n.radioLinkTxPacket i 1) packetType n.txSequenceBit)
  (n.radioMacTx (.radioLinkTxPacket i)).countTry

/-- The buffer that the interrupt receives into. -/
def currentRxPacket : Buf := n.radioLinkRxPacket n.radioLinkRxInterruptIndex

def noteActivity : Node := { n with radioLinkActivityOccurred := true }

def takeInitiative : Node :=
  if n.sendingReset then n.txResetPacket.noteActivity
  else if n.radioLinkTxInterruptIndex ≠ n.radioLinkTxMainLoopIndex then
    (n.txDataPacket (packetType .ping)).noteActivity
  else n.radioMacRx (.radioLinkRxPacket n.radioLinkRxInterruptIndex) 0

/-- A frame with a bad CRC. Only the TX queue is asked whether there is something to send. -/
def handleBadCrc (random : UInt8) : Node :=
  if n.radioLinkTxInterruptIndex ≠ n.radioLinkTxMainLoopIndex then
    n.radioMacRx (.radioLinkRxPacket n.radioLinkRxInterruptIndex) (n.randomTxDelay random)
  else n.radioMacRx (.radioLinkRxPacket n.radioLinkRxInterruptIndex) 0

def handleReset : Node :=
  let n := { n with rxSequenceBit := true, radioLinkResetPacketReceived := true }
  ((n.record .resetReceived).txShortPacket (packetType .ack)).noteActivity

/-- The part of the handler for a frame with an acknowledgement. -/
def handleAck : Node :=
  if n.sendingReset then
    { n with sendingReset := false, radioLinkTxCurrentPacketTries := 0, txSequenceBit := false }
  else if n.radioLinkTxInterruptIndex ≠ n.radioLinkTxMainLoopIndex then
    { n with
      radioLinkTxInterruptIndex := Ring.next txPacketCount n.radioLinkTxInterruptIndex
      radioLinkTxCurrentPacketTries := 0
      txSequenceBit := !n.txSequenceBit }
  else n

def heedAck (header : UInt8) : Node :=
  if header &&& packetTypeMask = packetType .ack then n.handleAck else n

/-- Gives the received packet to the main loop: its buffer gets the payload length and the payload
type in place of the frame length and the link header. -/
def acceptPacket : Node :=
  let i := n.radioLinkRxInterruptIndex
  let packet := n.currentRxPacket
  let payloadType := (packet 1 &&& payloadTypeMask) >>> 1
  let packet' := Function.update (Function.update packet 1 (packet 0 - 1)) 0 payloadType
  let n := { n with
    rxSequenceBit := seqOf (packet 1)
    acceptAnySequenceBit := false
    radioLinkRxPacket := Function.update n.radioLinkRxPacket i packet'
    radioLinkRxInterruptIndex := Ring.next rxPacketCount i }
  n.record (.accepted (rxPacketOf packet'))

/-- Accepts a packet that is not a retransmission when there is a free buffer, and says which
packet type the response has. -/
def offerPacket : Node × Kind :=
  if n.acceptAnySequenceBit ∨ n.rxSequenceBit ≠ seqOf (n.currentRxPacket 1) then
    if Ring.next rxPacketCount n.radioLinkRxInterruptIndex ≠ n.radioLinkRxMainLoopIndex then
      (n.acceptPacket, .ack)
    else (n, .nak)
  else (n, .ack)

def respond (responsePacketType : Kind) : Node :=
  if n.radioLinkTxInterruptIndex ≠ n.radioLinkTxMainLoopIndex then
    (n.txDataPacket (packetType responsePacketType)).noteActivity
  else (n.txShortPacket (packetType responsePacketType)).noteActivity

/-- The end of the handler for a frame with a good CRC that is not a reset. -/
def handleData (length : UInt8) : Node :=
  if length > 1 then n.offerPacket.1.respond n.offerPacket.2 else n.takeInitiative

def handleGoodCrc : Node :=
  if n.currentRxPacket 1 &&& packetTypeMask = packetType .reset then n.handleReset
  else (n.heedAck (n.currentRxPacket 1)).handleData (n.currentRxPacket 0)

def radioMacEventHandler (r : Readings) : MacEvent → Node → Node
  | .strobe, n => n.takeInitiative
  | .tx, n =>
      n.radioMacRx (.radioLinkRxPacket n.radioLinkRxInterruptIndex) (n.randomTxDelay r.random)
  | .rx, n => if r.crcPassed then n.handleGoodCrc else n.handleBadCrc r.random
  | .rxTimeout, n => n.takeInitiative

/-! ### The node under the MAC layer -/

def client : Client Node Buffer where
  mac n := n.mac
  setMac m n := { n with mac := m }
  radioMacEventHandler := radioMacEventHandler

def beforeHandler : Node := { n with mac := n.mac.beforeHandler }

def radioMacEvent (r : Readings) (e : MacEvent) : Node := client.radioMacEvent r e n

def isrRf (h : RfReadings) : Node := client.isrRf h n

def setBuffer (buf : Buf) : Buffer → Node
  | .shortTxPacket => { n with shortTxPacket := buf }
  | .radioLinkTxPacket i =>
      { n with radioLinkTxPacket := Function.update n.radioLinkTxPacket i buf }
  | .radioLinkRxPacket i =>
      { n with radioLinkRxPacket := Function.update n.radioLinkRxPacket i buf }

/-- The DMA channel stores bytes that the radio receives, when it is set up for that. -/
def dmaReceive (bytes : List UInt8) : Node :=
  match n.mac.radioMacState, n.mac.dma with
  | .rx, some ⟨.rfd, .packet p, lenl, _⟩ => n.setBuffer (dmaStore lenl bytes (n.buffer p)) p
  | _, _ => n

def transmitting : Option Buf := if n.mac.radioMacState = .tx then some n.frame else none

/-! ### What passed through the link -/

def sent : List Packet := n.history.filterMap LinkEvent.sent?

def accepted : List Packet := n.history.filterMap LinkEvent.accepted?

def received : List Packet := n.history.filterMap LinkEvent.received?

end Node
end WixelSdk.RadioLink
