import Mathlib.Data.UInt
import Mathlib.Logic.Function.Basic

/-!
# The USB library

The control transfers of `usb.c`. A call of `usbPoll` reads the status of the USB module once and
then handles, in this order, a lost or new connection, the bus events and what has happened on
endpoint 0. Its writes to the endpoint 0 FIFO and to USBCS0 and the SETUP packets that it takes are
returned as a list of events. The callbacks are those of a `ClassDriver`, which also says what the
CODE memory holds; `ρ` names the driver's own objects and `δ` holds its variables.
-/

namespace WixelSdk.Usb

def usbEp0PacketSize : ℕ := 32

/-- USB_DEVICE_STATES -/
inductive DeviceState
  | detached
  | attached
  | powered
  | default
  | address
  | configured
  deriving DecidableEq, Repr

def DeviceState.value : DeviceState → ℕ
  | .detached => 0
  | .attached => 1
  | .powered => 2
  | .default => 4
  | .address => 8
  | .configured => 16

inductive ControlTransferState
  | none
  | write
  | read
  deriving DecidableEq, Repr

def bit (register : UInt8) (k : ℕ) : Bool := register.toNat.testBit k

/-! ### SETUP packets -/

structure SetupPacket where
  bmRequestType : UInt8
  bRequest : UInt8
  wValue : UInt16
  wIndex : UInt16
  wLength : UInt16
  deriving DecidableEq, Repr

namespace SetupPacket

variable (p : SetupPacket)

def recipient : UInt8 := p.bmRequestType &&& 0x1F

def requestType : UInt8 := p.bmRequestType >>> 5 &&& 3

def valueHigh : UInt16 := p.wValue >>> 8

def valueLow : UInt16 := p.wValue &&& 0xFF

/-- A uint16 is stored with its low byte first. -/
def word (low high : UInt8) : UInt16 := low.toUInt16 ||| high.toUInt16 <<< 8

def ofFifo (fifo : ℕ → UInt8) : SetupPacket where
  bmRequestType := fifo 0
  bRequest := fifo 1
  wValue := word (fifo 2) (fifo 3)
  wIndex := word (fifo 4) (fifo 5)
  wLength := word (fifo 6) (fifo 7)

end SetupPacket

/-- The requests that usbStandardDeviceRequestHandler() knows. -/
inductive StandardRequest
  | getStatus
  | clearFeature
  | setFeature
  | setAddress
  | getDescriptor
  | getConfiguration
  | setConfiguration
  | getInterface
  | synchFrame
  deriving DecidableEq, Repr

def StandardRequest.ofByte? (bRequest : UInt8) : Option StandardRequest :=
  if bRequest = 0 then some .getStatus
  else if bRequest = 1 then some .clearFeature
  else if bRequest = 3 then some .setFeature
  else if bRequest = 5 then some .setAddress
  else if bRequest = 6 then some .getDescriptor
  else if bRequest = 8 then some .getConfiguration
  else if bRequest = 9 then some .setConfiguration
  else if bRequest = 10 then some .getInterface
  else if bRequest = 12 then some .synchFrame
  else none

/-! ### Memory -/

inductive Object (ρ : Type*)
  | usbDeviceDescriptor
  | usbConfigurationDescriptor
  | usbStringDescriptor (index : ℕ)
  | response
  | driver (object : ρ)
  deriving DecidableEq, Repr

structure Pointer (ρ : Type*) where
  object : Object ρ
  offset : ℕ
  deriving DecidableEq, Repr

namespace Pointer

variable {ρ : Type*}

def start (object : Object ρ) : Pointer ρ := ⟨object, 0⟩

def add (p : Pointer ρ) (n : ℕ) : Pointer ρ := { p with offset := p.offset + n }

@[simp] theorem add_zero (p : Pointer ρ) : p.add 0 = p := rfl

theorem add_add (p : Pointer ρ) (m n : ℕ) : (p.add m).add n = p.add (m + n) := by
  simp only [add, Nat.add_assoc]

end Pointer

/-! ### The device -/

/-- What usbPoll() reads from the hardware. `fifo` holds the bytes of the OUT packet. -/
structure Readings where
  usbPowerPresent : Bool
  vinPowerPresent : Bool
  usbcif : UInt8
  usbiif : UInt8
  usbcs0 : UInt8
  usbcnt0 : UInt8
  fifo : ℕ → UInt8
  getMs : UInt32

namespace Readings

variable (r : Readings)

def suspendif : Bool := bit r.usbcif 0
def resumeif : Bool := bit r.usbcif 1
def rstif : Bool := bit r.usbcif 2
def ep0if : Bool := bit r.usbiif 0
def outpktRdy : Bool := bit r.usbcs0 0
def inpktRdy : Bool := bit r.usbcs0 1
def sentStall : Bool := bit r.usbcs0 2
def setupEnd : Bool := bit r.usbcs0 4

end Readings

structure Device (ρ δ : Type*) where
  usbSetupPacket : SetupPacket
  usbDeviceState : DeviceState
  controlTransferState : ControlTransferState
  controlTransferBytesLeft : ℕ
  controlTransferPointer : Pointer ρ
  usbSuspendMode : Bool
  usbindex : UInt8
  usbaddr : UInt8
  xdata : Object ρ → ℕ → UInt8
  vars : δ

/-- `code` holds the contents of the objects in CODE memory; the others are in XDATA. -/
structure ClassDriver (ρ δ : Type*) where
  code : Object ρ → Option (ℕ → UInt8)
  usbStringDescriptorCount : UInt8
  usbCallbackSetupHandler : Readings → Device ρ δ → Device ρ δ
  usbCallbackClassDescriptorHandler : Readings → Device ρ δ → Device ρ δ
  usbCallbackInitEndpoints : Readings → Device ρ δ → Device ρ δ
  usbCallbackControlWriteHandler : Readings → Device ρ δ → Device ρ δ

/-- What usbPoll() does to endpoint 0: a SETUP packet is taken, a byte is written to the FIFO, a
value is written to USBCS0 while USBINDEX selects an endpoint. -/
inductive Ep0Event
  | setup (packet : SetupPacket)
  | usbf0 (byte : UInt8)
  | usbcs0 (usbindex value : UInt8)
  deriving DecidableEq, Repr

abbrev Ep0 (ρ δ : Type*) := Device ρ δ × List Ep0Event

namespace Ep0

variable {ρ δ : Type*}

def andThen (x : Ep0 ρ δ) (f : Device ρ δ → Ep0 ρ δ) : Ep0 ρ δ := ((f x.1).1, x.2 ++ (f x.1).2)

@[simp] theorem andThen_fst (x : Ep0 ρ δ) (f : Device ρ δ → Ep0 ρ δ) :
    (x.andThen f).1 = (f x.1).1 := rfl

@[simp] theorem andThen_snd (x : Ep0 ρ δ) (f : Device ρ δ → Ep0 ρ δ) :
    (x.andThen f).2 = x.2 ++ (f x.1).2 := rfl

end Ep0

namespace Device

variable {ρ δ : Type*} [DecidableEq ρ] (D : ClassDriver ρ δ) (r : Readings) (u : Device ρ δ)

def load (p : Pointer ρ) : UInt8 :=
  match D.code p.object with
  | some bytes => bytes p.offset
  | none => u.xdata p.object p.offset

def bytesAt (p : Pointer ρ) (n : ℕ) : List UInt8 := (List.range n).map fun i => u.load D (p.add i)

/-- A write to CODE memory has no effect. -/
def store (p : Pointer ρ) (byte : UInt8) : Device ρ δ :=
  if (D.code p.object).isSome then u
  else
    { u with
      xdata := Function.update u.xdata p.object
        (Function.update (u.xdata p.object) p.offset byte) }

/-- usbReadFifo(), storing the given bytes one after the other. -/
def usbReadFifo (D : ClassDriver ρ δ) : List UInt8 → Pointer ρ → Device ρ δ → Device ρ δ
  | [], _, u => u
  | byte :: bytes, buffer, u => usbReadFifo D bytes (buffer.add 1) (u.store D buffer byte)

/-! ### The helpers for the callbacks -/

def usbControlRead (bytesCount : ℕ) (source : Pointer ρ) : Device ρ δ :=
  { u with
    controlTransferState := .read
    controlTransferBytesLeft := bytesCount
    controlTransferPointer := source }

def usbControlWrite (bytesCount : ℕ) (source : Pointer ρ) : Device ρ δ :=
  { u with
    controlTransferState := .write
    controlTransferBytesLeft := bytesCount
    controlTransferPointer := source }

def usbControlAcknowledge : Device ρ δ :=
  { u with controlTransferState := .write, controlTransferBytesLeft := 0 }

def usbControlStall : Device ρ δ := { u with controlTransferState := .none }

/-! ### Standard device requests -/

def setResponse (r0 r1 : UInt8) : Device ρ δ :=
  { u with
    xdata := Function.update u.xdata .response
      (Function.update (Function.update (u.xdata .response) 0 r0) 1 r1) }

/-- Limits the count to what the host has requested and starts the control read. -/
def readDescriptor : Device ρ δ :=
  { u with
    controlTransferState := .read
    controlTransferBytesLeft := min u.controlTransferBytesLeft u.usbSetupPacket.wLength.toNat }

def pointTo (object : Object ρ) (bytesLeft : ℕ) : Device ρ δ :=
  { u with
    controlTransferPointer := .start object
    controlTransferBytesLeft := bytesLeft }

/-- The total length of the configuration descriptor, from its 3rd and 4th byte. -/
def wTotalLength : ℕ :=
  (SetupPacket.word (u.load D ⟨.usbConfigurationDescriptor, 2⟩)
    (u.load D ⟨.usbConfigurationDescriptor, 3⟩)).toNat

def bNumInterfaces : UInt8 := u.load D ⟨.usbConfigurationDescriptor, 4⟩

def getDescriptor : Device ρ δ :=
  let p := u.usbSetupPacket
  if p.valueHigh = 1 then (u.pointTo .usbDeviceDescriptor 18).readDescriptor
  else if p.valueHigh = 2 then
    if p.valueLow ≠ 0 then u
    else (u.pointTo .usbConfigurationDescriptor (u.wTotalLength D)).readDescriptor
  else if p.valueHigh = 3 then
    if p.valueLow ≥ D.usbStringDescriptorCount.toUInt16 then u
    else
      let descriptor := Object.usbStringDescriptor p.valueLow.toNat
      (u.pointTo descriptor (u.load D (.start descriptor)).toNat).readDescriptor
  else
    let v := D.usbCallbackClassDescriptorHandler r u
    if v.controlTransferState = .none then v else v.readDescriptor

def setAddress : Device ρ δ :=
  let address := u.usbSetupPacket.wValue.toUInt8
  { u with
    usbaddr := address
    usbDeviceState := if address ≠ 0 then .address else .default }.usbControlAcknowledge

def setConfiguration : Device ρ δ :=
  if u.usbSetupPacket.wValue = 0 then
    { u with
      usbDeviceState := if u.usbDeviceState.value > DeviceState.address.value then .address
        else u.usbDeviceState }.usbControlAcknowledge
  else if u.usbSetupPacket.wValue = 1 then
    (D.usbCallbackInitEndpoints r { u with usbDeviceState := .configured }).usbControlAcknowledge
  else u

def getConfiguration : Device ρ δ :=
  (u.setResponse (if u.usbDeviceState = .configured then 1 else 0) 0).usbControlRead 1
    (.start .response)

def getInterface : Device ρ δ :=
  if u.usbDeviceState.value < DeviceState.configured.value then u
  else if u.usbSetupPacket.wIndex ≥ (u.bNumInterfaces D).toUInt16 then u
  else u.usbControlRead 1 (.start .response)

def getStatus : Device ρ δ :=
  let p := u.usbSetupPacket
  if p.recipient = 0 then
    (u.setResponse (if r.vinPowerPresent then 1 else 0) 0).usbControlRead 2 (.start .response)
  else if p.recipient = 1 then
    if u.usbDeviceState.value < DeviceState.configured.value ∧ p.wIndex ≠ 0 then u
    else if p.wIndex ≥ (u.bNumInterfaces D).toUInt16 then u
    else u.usbControlRead 2 (.start .response)
  else if p.recipient = 2 then
    if p.wValue &&& 15 = 0 then u
    else if u.usbDeviceState.value < DeviceState.configured.value then u
    else u.usbControlRead 2 (.start .response)
  else u

def usbStandardDeviceRequestHandler : Device ρ δ :=
  let v := u.setResponse 0 0
  match StandardRequest.ofByte? v.usbSetupPacket.bRequest with
  | some .getDescriptor => v.getDescriptor D r
  | some .setAddress => v.setAddress
  | some .setConfiguration => v.setConfiguration D r
  | some .getConfiguration => v.getConfiguration
  | some .getInterface => v.getInterface D
  | some .getStatus => v.getStatus D r
  | some .setFeature => v.usbControlAcknowledge
  | some .clearFeature => v.usbControlAcknowledge
  | some .synchFrame => v.usbControlRead 2 (.start .response)
  | none => v

/-! ### usbPoll -/

def detach : Device ρ δ := { u with usbDeviceState := .detached, usbSuspendMode := false }

def attach : Device ρ δ :=
  if u.usbDeviceState = .detached then
    { u with usbDeviceState := .powered, usbSuspendMode := false }
  else u

def suspendEvent : Device ρ δ := if r.suspendif then { u with usbSuspendMode := true } else u

def resetEvent : Device ρ δ :=
  if r.rstif then
    { u with
      usbDeviceState := .default
      controlTransferState := .none
      usbSuspendMode := false }
  else u

def resumeEvent : Device ρ δ := if r.resumeif then { u with usbSuspendMode := false } else u

def writeUsbcs0 (value : UInt8) : Ep0 ρ δ := (u, [.usbcs0 u.usbindex value])

def selectEp0 : Device ρ δ := { u with usbindex := 0 }

/-- SETUP_END: a new SETUP packet has ended the previous control transfer. -/
def endTransfer : Ep0 ρ δ :=
  if r.setupEnd then (u.writeUsbcs0 0x80).andThen fun v => (v.usbControlStall, []) else (u, [])

/-- SENT_STALL: endpoint 0 is reset. -/
def stallSent : Ep0 ρ δ :=
  if r.sentStall then (u.writeUsbcs0 0x00).andThen fun v => (v.usbControlStall, []) else (u, [])

def flags : Ep0 ρ δ := (u.selectEp0.endTransfer r).andThen fun v => v.stallSent r

/-- The number of bytes taken from a data packet of a control write. -/
def bytesReceived : ℕ := min r.usbcnt0.toNat u.controlTransferBytesLeft

def receiveData : Device ρ δ :=
  let n := u.bytesReceived r
  { usbReadFifo D ((List.range n).map r.fifo) u.controlTransferPointer u with
    controlTransferPointer := u.controlTransferPointer.add n
    controlTransferBytesLeft := u.controlTransferBytesLeft - n }

/-- The host has sent all the data of a control write. -/
def finishWrite : Ep0 ρ δ :=
  let v := (if u.usbSetupPacket.requestType ≠ 0 then D.usbCallbackControlWriteHandler r u
    else u).selectEp0
  if v.controlTransferState = .none then v.writeUsbcs0 0x68
  else (v.writeUsbcs0 0x48).andThen fun w => (w.usbControlStall, [])

def dataPacket : Ep0 ρ δ :=
  let v := u.receiveData D r
  if v.controlTransferBytesLeft ≠ 0 then v.writeUsbcs0 0x40 else v.finishWrite D r

/-- Stores the SETUP packet and forgets the previous control transfer. -/
def takeSetup : Ep0 ρ δ :=
  ({ u with usbSetupPacket := .ofFifo r.fifo, controlTransferState := .none },
    [.setup (.ofFifo r.fifo)])

def handleSetup : Device ρ δ :=
  (if u.usbSetupPacket.requestType = 0 then u.usbStandardDeviceRequestHandler D r
    else D.usbCallbackSetupHandler r u).selectEp0

/-- The first transaction after the SETUP packet. -/
def answerSetup : Ep0 ρ δ :=
  match u.controlTransferState with
  | .none => u.writeUsbcs0 0x60
  | .write =>
      if u.controlTransferBytesLeft ≠ 0 then u.writeUsbcs0 0x40
      else (u.writeUsbcs0 0x4A).andThen fun v => (v.usbControlStall, [])
  | .read => (u, [])

def setupPacket : Ep0 ρ δ := (u.takeSetup r).andThen fun v => (v.handleSetup D r).answerSetup

/-- OUTPKT_RDY -/
def outPacket : Ep0 ρ δ :=
  if r.outpktRdy then
    if u.controlTransferState = .write then u.dataPacket D r
    else if r.usbcnt0 = 8 then u.setupPacket D r
    else u.writeUsbcs0 0x40
  else (u, [])

def usbWriteFifo (n : ℕ) (buffer : Pointer ρ) : List Ep0Event := (u.bytesAt D buffer n).map .usbf0

/-- Endpoint 0 is ready to accept another packet of a control read. -/
def inPacket : Ep0 ρ δ :=
  if r.inpktRdy = false ∧ u.controlTransferState = .read then
    let last := u.controlTransferBytesLeft < usbEp0PacketSize
    let bytesToSend := if last then u.controlTransferBytesLeft else usbEp0PacketSize
    ({ u with
      controlTransferState := if last then .none else .read
      controlTransferPointer := u.controlTransferPointer.add bytesToSend
      controlTransferBytesLeft := u.controlTransferBytesLeft - bytesToSend },
      u.usbWriteFifo D bytesToSend u.controlTransferPointer ++
        [.usbcs0 u.usbindex (if last then 0x0A else 0x02)])
  else (u, [])

def endpoint0 : Ep0 ρ δ :=
  ((u.flags r).andThen fun v => v.outPacket D r).andThen fun v => v.inPacket D r

/-- The device after the connection and the bus events. -/
def busEvents : Device ρ δ := ((u.attach.suspendEvent r).resetEvent r).resumeEvent r

def usbPoll : Ep0 ρ δ :=
  if r.usbPowerPresent then
    if r.ep0if then (u.busEvents r).endpoint0 D r else (u.busEvents r, [])
  else (u.detach, [])

def polls (D : ClassDriver ρ δ) : List Readings → Device ρ δ → Ep0 ρ δ
  | [], u => (u, [])
  | r :: rs, u => (u.usbPoll D r).andThen (polls D rs)

end Device
end WixelSdk.Usb
