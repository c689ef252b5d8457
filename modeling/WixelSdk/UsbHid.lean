import WixelSdk.UsbDescriptor

/-!
# The callbacks of the USB HID library

The variables, descriptors and callbacks of `usb_hid.c`, for its keyboard, mouse and joystick
interfaces. The report descriptors are written as lists of items. The serial number string is in the
bootloader, outside the repository, and is a parameter.
-/

namespace WixelSdk.UsbHid
open Usb

/-! ### Report descriptors -/

/-- HID 1.11 Section 6.2.2 -/
inductive ReportItem
  | usagePage (page : UInt8)
  | usage (id : UInt8)
  | collection (kind : UInt8)
  | endCollection
  | reportCount (count : UInt8)
  | reportSize (size : UInt8)
  | usageMin (id : UInt8)
  | usageMax (id : UInt8)
  | logicalMin (value : UInt8)
  | logicalMin2 (low high : UInt8)
  | logicalMax (value : UInt8)
  | logicalMax2 (low high : UInt8)
  | input (attributes : UInt8)
  | output (attributes : UInt8)
  deriving DecidableEq, Repr

def ReportItem.bytes : ReportItem → List UInt8
  | .usagePage page => [0x05, page]
  | .usage id => [0x09, id]
  | .collection kind => [0xA1, kind]
  | .endCollection => [0xC0]
  | .reportCount count => [0x95, count]
  | .reportSize size => [0x75, size]
  | .usageMin id => [0x19, id]
  | .usageMax id => [0x29, id]
  | .logicalMin value => [0x15, value]
  | .logicalMin2 low high => [0x16, low, high]
  | .logicalMax value => [0x25, value]
  | .logicalMax2 low high => [0x26, low, high]
  | .input attributes => [0x81, attributes]
  | .output attributes => [0x91, attributes]

def keyboardReportDescriptor : List UInt8 :=
  ([.usagePage 0x01, .usage 0x06, .collection 1,
    -- 8 modifier keys
    .reportCount 8, .reportSize 1, .usagePage 0x07, .usageMin 0xE0, .usageMax 0xE7, .logicalMin 0,
    .logicalMax 1, .input 0x2,
    -- a reserved byte
    .reportCount 1, .reportSize 8, .input 0x1,
    -- 8 LEDs
    .reportCount 8, .reportSize 1, .usagePage 0x08, .usageMin 0x1, .usageMax 0x8, .output 0x2,
    -- 6 key codes
    .reportCount 6, .reportSize 8, .usagePage 0x07, .usageMin 0, .usageMax 231, .logicalMin 0,
    .logicalMax2 231 0, .input 0,
    .endCollection] : List ReportItem).flatMap ReportItem.bytes

def mouseReportDescriptor : List UInt8 :=
  ([.usagePage 0x01, .usage 0x02, .collection 1, .usage 0x01, .collection 0,
    -- 8 buttons
    .reportCount 8, .reportSize 1, .usagePage 0x09, .usageMin 1, .usageMax 8, .logicalMin 0,
    .logicalMax 1, .input 0x2,
    -- 3 axes, from -127 to 127
    .reportCount 3, .reportSize 8, .usagePage 0x01, .usage 0x30, .usage 0x31, .usage 0x38,
    .logicalMin 0x81, .logicalMax 127, .input 0x6,
    .endCollection, .endCollection] : List ReportItem).flatMap ReportItem.bytes

def joystickReportDescriptor : List UInt8 :=
  ([.usagePage 0x01, .usage 0x04, .collection 1, .usage 0x01, .collection 0,
    -- 8 axes, from -32767 to 32767
    .reportCount 8, .reportSize 16, .usage 0x30, .usage 0x31, .usage 0x32, .usage 0x33, .usage 0x34,
    .usage 0x35, .usage 0x36, .usage 0x37, .logicalMin2 0x01 0x80, .logicalMax2 0xFF 0x7F,
    .input 0x2,
    .endCollection,
    -- 32 buttons
    .reportCount 32, .reportSize 1, .usagePage 0x09, .usageMin 1, .usageMax 32, .logicalMin 0,
    .logicalMax 1, .input 0x2,
    .endCollection] : List ReportItem).flatMap ReportItem.bytes

/-! ### Descriptors -/

def usbDeviceDescriptor : List UInt8 := usbDescriptorDevice 0 0x2201

/-- A HID descriptor for a report descriptor. -/
def hidDescriptor (reportDescriptor : List UInt8) : List UInt8 :=
  [9, 0x21, 0x11, 0x01, 0, 1, 0x22, UInt8.ofNat reportDescriptor.length, 0]

def usbConfigurationDescriptor : List UInt8 :=
  usbDescriptorConfiguration 84 3 ++
    usbDescriptorInterface 0 1 3 1 1 4 ++ hidDescriptor keyboardReportDescriptor ++
    usbDescriptorEndpoint 0x81 3 8 10 ++
    usbDescriptorInterface 1 1 3 1 2 5 ++ hidDescriptor mouseReportDescriptor ++
    usbDescriptorEndpoint 0x82 3 4 10 ++
    usbDescriptorInterface 2 1 3 0 0 6 ++ hidDescriptor joystickReportDescriptor ++
    usbDescriptorEndpoint 0x83 3 20 10

/-- The offsets of keyboard_hid, mouse_hid and joystick_hid in usbConfigurationDescriptor. -/
def hidDescriptorOffset (wIndex : UInt16) : ℕ := 18 + 25 * wIndex.toNat

theorem descriptor_lengths : usbDeviceDescriptor.length = (contents usbDeviceDescriptor 0).toNat ∧
    usbConfigurationDescriptor.length = (SetupPacket.word (contents usbConfigurationDescriptor 2)
      (contents usbConfigurationDescriptor 3)).toNat := by
  decide +kernel

/-- GET_DESCRIPTOR(HID) reads the HID descriptor of the interface from the configuration. -/
theorem usbConfigurationDescriptor_hid :
    [0, 1, 2].map (fun i => (usbConfigurationDescriptor.drop (hidDescriptorOffset i)).take 9) =
      [keyboardReportDescriptor, mouseReportDescriptor, joystickReportDescriptor].map
        hidDescriptor := by
  decide +kernel

inductive HidObject
  | keyboardReportDescriptor
  | mouseReportDescriptor
  | joystickReportDescriptor
  | usbHidKeyboardOutput
  | usbHidKeyboardInput
  | usbHidMouseInput
  | usbHidJoystickInput
  | response
  deriving DecidableEq, Repr

def HidObject.size : HidObject → ℕ
  | .keyboardReportDescriptor => UsbHid.keyboardReportDescriptor.length
  | .mouseReportDescriptor => UsbHid.mouseReportDescriptor.length
  | .joystickReportDescriptor => UsbHid.joystickReportDescriptor.length
  | .usbHidKeyboardOutput => 1
  | .usbHidKeyboardInput => 8
  | .usbHidMouseInput => 4
  | .usbHidJoystickInput => 20
  | .response => 1

structure Vars where
  hidKeyboardIdleDuration : UInt16
  hidKeyboardProtocol : Bool
  hidMouseProtocol : Bool
  deriving DecidableEq, Repr

abbrev Hid := Device HidObject Vars

def code (serialNumberStringDescriptor : ℕ → UInt8) : Object HidObject → Option (ℕ → UInt8)
  | .usbDeviceDescriptor => some (contents usbDeviceDescriptor)
  | .usbConfigurationDescriptor => some (contents usbConfigurationDescriptor)
  | .usbStringDescriptor 0 => some (contents languages)
  | .usbStringDescriptor 1 => some (contents manufacturer)
  | .usbStringDescriptor 2 => some (contents product)
  | .usbStringDescriptor 4 => some (contents (stringDescriptor 14 (chars "Wixel Keyboard")))
  | .usbStringDescriptor 5 => some (contents (stringDescriptor 11 (chars "Wixel Mouse")))
  | .usbStringDescriptor 6 => some (contents (stringDescriptor 14 (chars "Wixel Joystick")))
  | .usbStringDescriptor _ => some serialNumberStringDescriptor
  | .response => none
  | .driver .keyboardReportDescriptor => some (contents keyboardReportDescriptor)
  | .driver .mouseReportDescriptor => some (contents mouseReportDescriptor)
  | .driver .joystickReportDescriptor => some (contents joystickReportDescriptor)
  | .driver _ => none

/-! ### Callbacks -/

def usbCallbackInitEndpoints (_ : Readings) (u : Hid) : Hid := { u with usbindex := 3 }

inductive HidRequest
  | getReport
  | getIdle
  | getProtocol
  | setReport
  | setIdle
  | setProtocol
  deriving DecidableEq, Repr

def HidRequest.ofByte? (bRequest : UInt8) : Option HidRequest :=
  if bRequest = 0x1 then some .getReport
  else if bRequest = 0x2 then some .getIdle
  else if bRequest = 0x3 then some .getProtocol
  else if bRequest = 0x9 then some .setReport
  else if bRequest = 0xA then some .setIdle
  else if bRequest = 0xB then some .setProtocol
  else none

/-- Type==Class and Recipient==Interface. -/
def addressed (p : SetupPacket) : Prop := p.bmRequestType &&& 0x7F = 0x21

instance (p : SetupPacket) : Decidable (addressed p) := inferInstanceAs (Decidable (_ = _))

def readObject (o : HidObject) (u : Hid) : Hid := u.usbControlRead o.size (.start (.driver o))

def readResponse (value : UInt8) (u : Hid) : Hid :=
  readObject .response { u with
    xdata := Function.update u.xdata (.driver .response)
      (Function.update (u.xdata (.driver .response)) 0 value) }

def inputReport? (wIndex : UInt16) : Option HidObject :=
  if wIndex = 0 then some .usbHidKeyboardInput
  else if wIndex = 1 then some .usbHidMouseInput
  else if wIndex = 2 then some .usbHidJoystickInput
  else none

def reportDescriptor? (wIndex : UInt16) : Option HidObject :=
  if wIndex = 0 then some .keyboardReportDescriptor
  else if wIndex = 1 then some .mouseReportDescriptor
  else if wIndex = 2 then some .joystickReportDescriptor
  else none

def getReport (u : Hid) : Hid :=
  if u.usbSetupPacket.valueHigh ≠ 1 then u
  else
    match inputReport? u.usbSetupPacket.wIndex with
    | some report => readObject report u
    | none => u

def setReport (u : Hid) : Hid :=
  if u.usbSetupPacket.wIndex = 0 then
    u.usbControlWrite (HidObject.size .usbHidKeyboardOutput) (.start (.driver .usbHidKeyboardOutput))
  else u

/-- The idle duration is sent in units of 4 ms. -/
def getIdle (u : Hid) : Hid :=
  if u.usbSetupPacket.wIndex = 0 then readResponse (u.vars.hidKeyboardIdleDuration / 4).toUInt8 u
  else u

def setIdle (u : Hid) : Hid :=
  if u.usbSetupPacket.wIndex = 0 then
    { u with
      vars := { u.vars with
        hidKeyboardIdleDuration := u.usbSetupPacket.valueHigh * 4 } }.usbControlAcknowledge
  else u

def getProtocol (u : Hid) : Hid :=
  if u.usbSetupPacket.wIndex = 0 then readResponse u.vars.hidKeyboardProtocol.toUInt8 u
  else if u.usbSetupPacket.wIndex = 1 then readResponse u.vars.hidMouseProtocol.toUInt8 u
  else u

def setProtocol (u : Hid) : Hid :=
  let protocol := decide (u.usbSetupPacket.wValue ≠ 0)
  if u.usbSetupPacket.wIndex = 0 then
    { u with vars := { u.vars with hidKeyboardProtocol := protocol } }.usbControlAcknowledge
  else if u.usbSetupPacket.wIndex = 1 then
    { u with vars := { u.vars with hidMouseProtocol := protocol } }.usbControlAcknowledge
  else u

def usbCallbackSetupHandler (_ : Readings) (u : Hid) : Hid :=
  if addressed u.usbSetupPacket then
    match HidRequest.ofByte? u.usbSetupPacket.bRequest with
    | some .getReport => getReport u
    | some .setReport => setReport u
    | some .getIdle => getIdle u
    | some .setIdle => setIdle u
    | some .getProtocol => getProtocol u
    | some .setProtocol => setProtocol u
    | none => u
  else u

/-- Direction==Device-to-Host, Type==Standard and Recipient==Interface are required. -/
def usbCallbackClassDescriptorHandler (_ : Readings) (u : Hid) : Hid :=
  let p := u.usbSetupPacket
  if p.bmRequestType ≠ 0x81 then u
  else if p.valueHigh = 0x21 then
    if p.wIndex < 3 then
      u.usbControlRead 9 ⟨.usbConfigurationDescriptor, hidDescriptorOffset p.wIndex⟩
    else u
  else if p.valueHigh = 0x22 then
    match reportDescriptor? p.wIndex with
    | some descriptor => readObject descriptor u
    | none => u
  else u

def usbCallbackControlWriteHandler (_ : Readings) (u : Hid) : Hid := u

def usbHid (serialNumberStringDescriptor : ℕ → UInt8) : ClassDriver HidObject Vars where
  code := code serialNumberStringDescriptor
  usbStringDescriptorCount := 7
  usbCallbackSetupHandler := usbCallbackSetupHandler
  usbCallbackClassDescriptorHandler := usbCallbackClassDescriptorHandler
  usbCallbackInitEndpoints := usbCallbackInitEndpoints
  usbCallbackControlWriteHandler := usbCallbackControlWriteHandler

end WixelSdk.UsbHid
