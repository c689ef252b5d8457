import WixelSdk.Transition
import WixelSdk.UsbCdcPoll
import WixelSdk.UsbEndpoint

/-!
# The USB COM port

The functions of `usb_cdc_acm.c` that send, with the IN FIFOs of the data endpoint and of the
notification endpoint. The host may read a packet between any two accesses to them: `hostReads`
lists what it reads at each of these places, and `host` marks them.
-/

namespace WixelSdk.UsbCom
open Usb UsbCdcAcm Transition

inductive HostRead
  | data
  | notification
  deriving DecidableEq, Repr

structure Com where
  device : Cdc
  ep4 : EndpointIn
  ep1 : EndpointIn
  hostReads : List (List HostRead)

namespace Com

variable (c : Com)

def cdcInPacketSize : UInt8 := 64

def acmIrregularSignalMask : UInt8 := 0x7C

/-! ### The endpoint registers -/

def hostRead (c : Com) : HostRead → Com
  | .data => { c with ep4 := c.ep4.read }
  | .notification => { c with ep1 := c.ep1.read }

def host : Com := { (c.hostReads.headD []).foldl hostRead c with hostReads := c.hostReads.tail }

def select (endpointNumber : UInt8) : Com :=
  { c with device := { c.device with usbindex := endpointNumber } }

/-- The endpoint that USBCSIL belongs to. -/
def selected : EndpointIn :=
  if c.device.usbindex = 4 then c.ep4 else if c.device.usbindex = 1 then c.ep1 else .empty

def setInpktRdy : Com :=
  if c.device.usbindex = 4 then { c with ep4 := c.ep4.commit }
  else if c.device.usbindex = 1 then { c with ep1 := c.ep1.commit }
  else c

def writeData (byte : UInt8) : Com := { c.host with ep4 := c.host.ep4.write byte }

def writeNotification (byte : UInt8) : Com := { c.host with ep1 := c.host.ep1.write byte }

def setVars (v : Vars) : Com := { c with device := { c.device with vars := v } }

/-- usbWriteFifo() for the data endpoint. -/
def usbWriteFifo : List UInt8 → Com → Com
  | [], c => c
  | byte :: buffer, c => usbWriteFifo buffer (c.writeData byte)

/-! ### TX functions -/

def sendPacketNow : Com :=
  let d := (c.select 4).host.setInpktRdy
  d.setVars { d.device.vars with
    sendEmptyPacketSoon := decide (d.device.vars.inFifoBytesLoaded = cdcInPacketSize)
    inFifoBytesLoaded := 0 }

/-- The data endpoint in usbComService(): loaded bytes are sent, or an empty packet if one is due
and the FIFO is empty. -/
def serviceData : Com :=
  let d := (c.select 4).host
  if d.device.vars.inFifoBytesLoaded ≠ 0 ∨
      d.device.vars.sendEmptyPacketSoon = true ∧ d.selected.pktPresent = false then
    d.sendPacketNow
  else d

def serviceNotification : Com :=
  let d := (c.select 1).host
  let state := d.device.vars.usbComSerialState
  if state ≠ d.device.vars.lastReportedSerialState ∧ d.selected.inpktRdy = false then
    let sent := ([0xA1, 0x20, 0, 0, 0, 0, 2, 0, state, 0].foldl writeNotification d).host.setInpktRdy
    let regular := state &&& ~~~acmIrregularSignalMask
    sent.setVars { sent.device.vars with
      usbComSerialState := regular
      lastReportedSerialState := regular }
  else d

/-- More than 70 ms have passed since the request to start the bootloader. -/
def bootloaderDue (now : UInt32) : Prop :=
  c.device.vars.startBootloaderSoon = true ∧
    (now - c.device.vars.startBootloaderRequestTime.toUInt32).toUInt8 > 70

instance (now : UInt32) : Decidable (c.bootloaderDue now) := inferInstanceAs (Decidable (_ ∧ _))

def poll (serial : ℕ → UInt8) (r : Readings) : Com :=
  { c with device := (c.device.usbPoll (usbCdcAcm serial) r).1 }

/-- `now` is what getMs() returns; boardStartBootloader() does not return. -/
def usbComService (serial : ℕ → UInt8) (r : Readings) (now : UInt32) : Option Com :=
  let d := c.poll serial r
  if d.bootloaderDue now then none
  else if d.device.usbDeviceState ≠ .configured then some d
  else some d.serviceData.serviceNotification

def usbComTxAvailable : UInt8 × Com :=
  if c.device.usbDeviceState ≠ .configured then (0, c)
  else
    let d := (c.select 4).host
    if d.selected.pktPresent then
      if d.selected.inpktRdy then (0, d)
      else (cdcInPacketSize - d.device.vars.inFifoBytesLoaded, d)
    else (cdcInPacketSize <<< 1 - d.device.vars.inFifoBytesLoaded, d)

def sendIfFull : Com :=
  if c.device.vars.inFifoBytesLoaded = cdcInPacketSize then c.sendPacketNow else c

/-- How many of the bytes go into the packet under construction. -/
def packetSize (size : ℕ) : ℕ :=
  min (cdcInPacketSize - c.device.vars.inFifoBytesLoaded).toNat size

def load (bytes : List UInt8) : Com :=
  let d := usbWriteFifo bytes c
  d.setVars { d.device.vars with
    inFifoBytesLoaded := d.device.vars.inFifoBytesLoaded + UInt8.ofNat bytes.length }

/-- One pass of the loop in usbComTxSend(), and the bytes that are left. -/
def sendPass (buffer : List UInt8) : List UInt8 × Com :=
  let n := c.packetSize buffer.length
  (buffer.drop n, (c.load (buffer.take n)).sendIfFull)

/-- Only a first pass may send no byte, so that there is at most one more pass than bytes. -/
def sendLoop : ℕ → List UInt8 → Com → Option Com
  | _, [], c => some c
  | 0, _ :: _, _ => none
  | passes + 1, byte :: buffer, c =>
      sendLoop passes (c.sendPass (byte :: buffer)).1 (c.sendPass (byte :: buffer)).2

def usbComTxSend (buffer : List UInt8) : Option Com := sendLoop (buffer.length + 1) buffer c

def usbComTxSendByte (byte : UInt8) : Com :=
  let d := c.writeData byte
  (d.setVars { d.device.vars with
    inFifoBytesLoaded := d.device.vars.inFifoBytesLoaded + 1 }).sendIfFull

/-- The call is about to be made, and `reads` will happen while it runs. -/
def schedule (reads : List (List HostRead)) : Com := { c with hostReads := reads }

end Com

/-! ### Runs -/

/-- The port with the bytes that have been sent so far, how many more the last value of
usbComTxAvailable() allows, and whether usbComService() has been called since. -/
structure Station where
  com : Com
  sent : List UInt8
  promised : ℕ
  serviced : Bool

inductive Action
  | hostRead (read : HostRead)
  | txAvailable (reads : List (List HostRead))
  | txSend (buffer : List UInt8) (reads : List (List HostRead))
  | txSendByte (byte : UInt8) (reads : List (List HostRead))
  | service (readings : Readings) (now : UInt32) (reads : List (List HostRead))

def Action.bytes : Action → List UInt8
  | .txSend buffer _ => buffer
  | .txSendByte byte _ => [byte]
  | _ => []

namespace Station

variable (s : Station)

def start (c : Com) : Station := ⟨c, [], 0, false⟩

def afterSend (c : Com) (bytes : List UInt8) : Station :=
  { s with com := c, sent := s.sent ++ bytes, promised := s.promised - bytes.length }

def step (serial : ℕ → UInt8) (s : Station) : Action → Option Station
  | .hostRead read => some { s with com := s.com.hostRead read }
  | .txAvailable reads =>
      some { s with
        com := (s.com.schedule reads).usbComTxAvailable.2
        promised := (s.com.schedule reads).usbComTxAvailable.1.toNat
        serviced := false }
  | .txSend buffer reads =>
      ((s.com.schedule reads).usbComTxSend buffer).map fun c => s.afterSend c buffer
  | .txSendByte byte reads =>
      some (s.afterSend ((s.com.schedule reads).usbComTxSendByte byte) [byte])
  | .service readings now reads =>
      ((s.com.schedule reads).usbComService serial readings now).map fun c =>
        { s with com := c, serviced := true }

/-- The device is and stays configured, without a bus reset. -/
def StaysConfigured (serial : ℕ → UInt8) : Action → Prop
  | .service readings _ _ => readings.usbPowerPresent = true ∧ readings.rstif = false ∧
      (s.com.poll serial readings).device.usbDeviceState = .configured
  | _ => True

instance (serial : ℕ → UInt8) (a : Action) : Decidable (s.StaysConfigured serial a) := by
  rcases a with ⟨⟩ <;> dsimp only [StaysConfigured] <;> infer_instance

end Station
end WixelSdk.UsbCom
