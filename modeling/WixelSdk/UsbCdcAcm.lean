import WixelSdk.UsbDescriptor

/-!
# The callbacks of the USB CDC ACM library

The variables, descriptors and callbacks of `usb_cdc_acm.c`. `lineCodingChanges` counts the calls of
usbComLineCodingChangeHandler; no function reads it. The serial number string is in the bootloader,
outside the repository, and is a parameter.
-/

namespace WixelSdk.UsbCdcAcm
open Usb

/-- The objects in XDATA that the callbacks point to. -/
inductive CdcObject
  | usbComLineCoding
  deriving DecidableEq, Repr

structure Vars where
  usbComControlLineState : UInt8
  usbComSerialState : UInt8
  lastReportedSerialState : UInt8
  sendEmptyPacketSoon : Bool
  inFifoBytesLoaded : UInt8
  startBootloaderSoon : Bool
  startBootloaderRequestTime : UInt8
  lineCodingChanges : ℕ
  deriving DecidableEq, Repr

abbrev Cdc := Device CdcObject Vars

/-! ### Descriptors -/

def usbDeviceDescriptor : List UInt8 := usbDescriptorDevice 2 0x2200

def classSpecific : List UInt8 :=
  [5, 0x24, 0, 0x20, 0x01] ++ [4, 0x24, 2, 2] ++ [5, 0x24, 6, 0, 1] ++ [5, 0x24, 1, 0x00, 1]

def usbConfigurationDescriptor : List UInt8 :=
  usbDescriptorConfiguration 67 2 ++
    usbDescriptorInterface 0 1 2 2 1 0 ++ classSpecific ++ usbDescriptorEndpoint 0x81 3 10 1 ++
    usbDescriptorInterface 1 2 0xA 0 0 0 ++ usbDescriptorEndpoint 0x04 2 64 0 ++
    usbDescriptorEndpoint 0x84 2 64 0

theorem descriptor_lengths : usbDeviceDescriptor.length = (contents usbDeviceDescriptor 0).toNat ∧
    usbConfigurationDescriptor.length = (SetupPacket.word (contents usbConfigurationDescriptor 2)
      (contents usbConfigurationDescriptor 3)).toNat := by
  decide +kernel

def code (serialNumberStringDescriptor : ℕ → UInt8) : Object CdcObject → Option (ℕ → UInt8)
  | .usbDeviceDescriptor => some (contents usbDeviceDescriptor)
  | .usbConfigurationDescriptor => some (contents usbConfigurationDescriptor)
  | .usbStringDescriptor 0 => some (contents languages)
  | .usbStringDescriptor 1 => some (contents manufacturer)
  | .usbStringDescriptor 2 => some (contents product)
  | .usbStringDescriptor _ => some serialNumberStringDescriptor
  | .response => none
  | .driver .usbComLineCoding => none

/-! ### Callbacks -/

def usbComLineCoding : Pointer CdcObject := .start (.driver .usbComLineCoding)

def sizeofLineCoding : ℕ := 7

def lineCoding (u : Cdc) : List UInt8 :=
  (List.range sizeofLineCoding).map (u.xdata (.driver .usbComLineCoding))

/-- The baud rate, stored with its low byte first. -/
def dwDTERate (u : Cdc) : ℕ :=
  let byte := fun i => (u.xdata (.driver .usbComLineCoding) i).toNat
  byte 0 + 256 * (byte 1 + 256 * (byte 2 + 256 * byte 3))

inductive AcmRequest
  | setLineCoding
  | getLineCoding
  | setControlLineState
  deriving DecidableEq, Repr

def AcmRequest.ofByte? (bRequest : UInt8) : Option AcmRequest :=
  if bRequest = 0x20 then some .setLineCoding
  else if bRequest = 0x21 then some .getLineCoding
  else if bRequest = 0x22 then some .setControlLineState
  else none

/-- Type==Class and Recipient==Interface, for one of the two interfaces. -/
def addressed (p : SetupPacket) : Prop :=
  p.bmRequestType &&& 0x7F = 0x21 ∧ (p.wIndex = 0 ∨ p.wIndex = 1)

instance (p : SetupPacket) : Decidable (addressed p) := inferInstanceAs (Decidable (_ ∧ _))

def usbCallbackSetupHandler (_ : Readings) (u : Cdc) : Cdc :=
  if addressed u.usbSetupPacket then
    match AcmRequest.ofByte? u.usbSetupPacket.bRequest with
    | some .setLineCoding => u.usbControlWrite sizeofLineCoding usbComLineCoding
    | some .getLineCoding => u.usbControlRead sizeofLineCoding usbComLineCoding
    | some .setControlLineState =>
        { u with
          vars := { u.vars with
            usbComControlLineState := u.usbSetupPacket.wValue.toUInt8 } }.usbControlAcknowledge
    | none => u
  else u

def usbCallbackClassDescriptorHandler (_ : Readings) (u : Cdc) : Cdc := u

/-- usbInitEndpointIn() and usbInitEndpointOut() leave USBINDEX at the data endpoint. -/
def usbCallbackInitEndpoints (_ : Readings) (u : Cdc) : Cdc :=
  { u with usbindex := 4, vars := { u.vars with lastReportedSerialState := 0xFF } }

def usbComLineCodingChangeHandler (u : Cdc) : Cdc :=
  { u with vars := { u.vars with lineCodingChanges := u.vars.lineCodingChanges + 1 } }

def usbCallbackControlWriteHandler (r : Readings) (u : Cdc) : Cdc :=
  let v := usbComLineCodingChangeHandler u
  if dwDTERate v = 333 ∧ v.vars.startBootloaderSoon = false then
    { v with
      vars := { v.vars with
        startBootloaderSoon := true
        startBootloaderRequestTime := r.getMs.toUInt8 } }
  else v

def usbCdcAcm (serialNumberStringDescriptor : ℕ → UInt8) : ClassDriver CdcObject Vars where
  code := code serialNumberStringDescriptor
  usbStringDescriptorCount := 4
  usbCallbackSetupHandler := usbCallbackSetupHandler
  usbCallbackClassDescriptorHandler := usbCallbackClassDescriptorHandler
  usbCallbackInitEndpoints := usbCallbackInitEndpoints
  usbCallbackControlWriteHandler := usbCallbackControlWriteHandler

/-- 9600 baud, 1 stop bit, no parity, 8 data bits. -/
def initialLineCoding : List UInt8 := [0x80, 0x25, 0, 0, 0, 0, 8]

def init : Cdc where
  usbSetupPacket := ⟨0, 0, 0, 0, 0⟩
  usbDeviceState := .detached
  controlTransferState := .none
  controlTransferBytesLeft := 0
  controlTransferPointer := .start .response
  usbSuspendMode := false
  usbindex := 0
  usbaddr := 0
  xdata := fun o => if o = .driver .usbComLineCoding then contents initialLineCoding else fun _ => 0
  vars :=
    { usbComControlLineState := 0
      usbComSerialState := 0
      lastReportedSerialState := 0xFF
      sendEmptyPacketSoon := false
      inFifoBytesLoaded := 0
      startBootloaderSoon := false
      startBootloaderRequestTime := 0
      lineCodingChanges := 0 }

end WixelSdk.UsbCdcAcm
