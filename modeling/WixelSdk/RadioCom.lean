import WixelSdk.RadioLinkInterrupt

/-!
# The byte stream layer

The variables and functions of `radio_com.c`. They run in the main loop, so that interrupts may come
between any two accesses to what they share with the interrupt: `interrupts` lists what the interrupt
will do at each of these places, and `interrupt` marks them. `passed` records how the interrupts have
found the link, and no function reads it.
-/

namespace WixelSdk.RadioCom
open RadioMac RadioLink

def payloadTypeData : UInt8 := 0

def payloadTypeControlSignals : UInt8 := 1

def txQueueThreshold : ℕ := 1

/-- RADIO_LINK_PAYLOAD_SIZE, in the arithmetic of `radioComTxAvailable`. -/
def radioLinkPayloadSize : UInt8 := 18

/-- A ring slot and an offset in its buffer. The null pointer never points into a buffer. -/
abbrev Pointer := Option (ℕ × ℕ)

def Pointer.next (p : Pointer) : Pointer := p.map fun q => (q.1, q.2 + 1)

structure Com where
  link : Node
  radioComRxEnforceOrdering : Bool
  txBytesLoaded : UInt8
  rxBytesLeft : UInt8
  rxPointer : Pointer
  txPointer : Pointer
  packetPointer : Pointer
  radioComRxSignals : UInt8
  radioComTxSignals : UInt8
  lastRxSignals : UInt8
  sendSignalsSoon : Bool
  interrupts : List (List Irq)
  passed : List (Node × Irq)

namespace Com

variable (c : Com)

/-- The static variables before `radioComInit`. -/
def powerUp (radioComRxEnforceOrdering : Bool) : Com where
  link := .powerUp
  radioComRxEnforceOrdering := radioComRxEnforceOrdering
  txBytesLoaded := 0
  rxBytesLeft := 0
  rxPointer := none
  txPointer := none
  packetPointer := none
  radioComRxSignals := 0
  radioComTxSignals := 0
  lastRxSignals := 0
  sendSignalsSoon := false
  interrupts := []
  passed := []

def radioComInit (param_radio_channel : UInt8) : Com :=
  { c with link := c.link.radioLinkInit param_radio_channel }

def interrupt : Com :=
  { c with
    link := (c.interrupts.headD []).foldl Node.interrupt c.link
    interrupts := c.interrupts.tail
    passed := c.passed ++ c.link.visits (c.interrupts.headD []) }

/-! ### RX functions -/

def waitingToReportRxSignals : Bool :=
  c.radioComRxEnforceOrdering && c.radioComRxSignals != c.lastRxSignals

def radioLinkRxDoneWithPacket : Com := { c with link := c.link.radioLinkRxDoneWithPacket }

/-- The byte at an offset from the RX pointer `packet`. -/
def rxByte (slot offset : ℕ) : UInt8 := c.link.radioLinkRxPacket slot offset

/-- The case PAYLOAD_TYPE_DATA; `packet[0]` is at offset 1 of the buffer. -/
def loadPacket (slot : ℕ) : Com :=
  { c with rxBytesLeft := c.rxByte slot 1, rxPointer := some (slot, 2) }

def noteSignals (v : UInt8) : Com := { c with radioComRxSignals := v }

/-- The case PAYLOAD_TYPE_CONTROL_SIGNALS, without its return. -/
def takeSignals (slot : ℕ) : Com :=
  (c.noteSignals (c.rxByte slot 2)).interrupt.radioLinkRxDoneWithPacket

/-- The loop of `receiveMorePackets`; the error is the state in which it still runs after `fuel`
iterations. -/
def receiveLoop : ℕ → Com → Except Com Com
  | 0, c => .error c
  | fuel + 1, c =>
      match c.link.radioLinkRxCurrentPacket with
      | none => .ok c
      | some slot =>
          if c.link.radioLinkRxCurrentPayloadType = payloadTypeData then
            .ok (c.interrupt.loadPacket slot)
          else if c.link.radioLinkRxCurrentPayloadType = payloadTypeControlSignals then
            if (c.interrupt.takeSignals slot).waitingToReportRxSignals then
              .ok (c.interrupt.takeSignals slot)
            else receiveLoop fuel (c.interrupt.takeSignals slot).interrupt
          else receiveLoop fuel c.interrupt

/-- An iteration that does not return releases a packet, except for a packet of unknown type, which
keeps the loop going for ever: more iterations than there are interrupts and buffers make no
difference. -/
def receiveMorePackets : Except Com Com :=
  if c.rxBytesLeft ≠ 0 then .ok c
  else if c.waitingToReportRxSignals then .ok c
  else c.receiveLoop (c.interrupts.length + rxPacketCount)

def radioComRxAvailable : Except Com (Com × UInt8) :=
  c.receiveMorePackets.map fun c => (c, c.rxBytesLeft)

/-- `*rxPointer` -/
def readRxPointer : UInt8 := c.rxPointer.elim 0 fun q => c.rxByte q.1 q.2

def advanceRx : Com :=
  { c with rxPointer := c.rxPointer.next, rxBytesLeft := c.rxBytesLeft - 1 }

def radioComRxReceiveByte : Com × UInt8 :=
  (if c.advanceRx.rxBytesLeft = 0 then c.advanceRx.interrupt.radioLinkRxDoneWithPacket
    else c.advanceRx, c.readRxPointer)

def reportSignals : Com := { c with lastRxSignals := c.radioComRxSignals }

def radioComRxControlSignals : Except Com (Com × UInt8) :=
  c.receiveMorePackets.map fun c => (c.reportSignals, c.radioComRxSignals)

/-! ### TX functions -/

/-- `radioLinkTxCurrentPacket()`, with the payload length at offset 1 of the buffer. -/
def radioLinkTxCurrentPacket : Pointer := c.link.radioLinkTxCurrentPacket.map fun slot => (slot, 1)

/-- `p[i] = b` -/
def store (p : Pointer) (i : ℕ) (b : UInt8) : Com :=
  p.elim c fun q => { c with link := c.link.storeTx q.1 (q.2 + i) b }

def writeTxHeader (payloadType : UInt8) : Com :=
  { c with link := c.link.writeTxHeader payloadType }

def advanceTxMainLoopIndex : Com := { c with link := c.link.advanceTxMainLoopIndex }

def radioMacStrobe : Com := { c with link := c.link.radioMacStrobe }

def radioLinkTxSendPacket (payloadType : UInt8) : Com :=
  ((c.writeTxHeader payloadType).interrupt.advanceTxMainLoopIndex).interrupt.radioMacStrobe

def radioComSendDataNow : Com :=
  { (c.store c.packetPointer 0 c.txBytesLoaded).radioLinkTxSendPacket payloadTypeData with
    txBytesLoaded := 0 }

def writeSignals (packet : Pointer) : Com :=
  { (c.store packet 0 1).store packet 1 c.radioComTxSignals with sendSignalsSoon := false }

def radioComSendControlSignalsNow : Com :=
  (c.writeSignals c.radioLinkTxCurrentPacket).interrupt.radioLinkTxSendPacket
    payloadTypeControlSignals

def clearResetPacketReceived : Com :=
  { c with link := { c.link with radioLinkResetPacketReceived := false } }

def noticeReset : Com :=
  if c.link.radioLinkResetPacketReceived then
    { c.interrupt.clearResetPacketReceived.interrupt with sendSignalsSoon := true }
  else c.interrupt

def flushData : Com := if c.txBytesLoaded ≠ 0 then c.radioComSendDataNow.interrupt else c

def radioComTxService : Com :=
  if c.noticeReset.sendSignalsSoon then
    if c.noticeReset.flushData.link.radioLinkTxAvailable ≠ 0 then
      c.noticeReset.flushData.interrupt.radioComSendControlSignalsNow
    else c.noticeReset.flushData
  else if c.noticeReset.txBytesLoaded ≠ 0 ∧
      c.noticeReset.link.radioLinkTxQueued ≤ txQueueThreshold then
    c.noticeReset.interrupt.radioComSendDataNow
  else c.noticeReset

def radioComTxAvailable : UInt8 :=
  if c.sendSignalsSoon then 0
  else UInt8.ofNat c.link.radioLinkTxAvailable * radioLinkPayloadSize - c.txBytesLoaded

def startPacket : Com :=
  if c.txBytesLoaded = 0 then
    { c with
      txPointer := c.radioLinkTxCurrentPacket
      packetPointer := c.radioLinkTxCurrentPacket }.interrupt
  else c

def appendByte (byte : UInt8) : Com :=
  { { c with txPointer := c.txPointer.next }.store c.txPointer.next 0 byte with
    txBytesLoaded := c.txBytesLoaded + 1 }

def radioComTxSendByte (byte : UInt8) : Com :=
  if (c.startPacket.appendByte byte).txBytesLoaded = radioLinkPayloadSize then
    (c.startPacket.appendByte byte).interrupt.radioComSendDataNow
  else c.startPacket.appendByte byte

def requestSignals (controlSignals : UInt8) : Com :=
  { c with radioComTxSignals := controlSignals, sendSignalsSoon := true }

def radioComTxControlSignals (controlSignals : UInt8) : Com :=
  if controlSignals ≠ c.radioComTxSignals then (c.requestSignals controlSignals).radioComTxService
  else c

end Com
end WixelSdk.RadioCom
