import WixelSdk.RadioComPort
import WixelSdk.UsbComPort

/-!
# The wireless serial link

usbToRadioService() of the app `wireless_serial` passes bytes on between the USB COM port and the
radio. Two Wixels that run it are a serial cable: `usbToRadioService_delivers` follows every byte from
the packets of one computer to those that the other computer reads, over two relays, two byte stream
layers and the radio link between them.
-/

namespace WixelSdk.WirelessSerial
open Usb RadioMac RadioLink RadioCom Transition Relay

/-- The port on the left is the USB port, and the one on the right is the radio. -/
abbrev Wixel := State UsbCom.Duplex Host UInt8

abbrev Action :=
  Relay.Action (List (List UsbCom.HostRead)) (List (List Irq)) UsbCom.Event RadioCom.Event

namespace Wixel

variable (s : Wixel)

def usb : UsbCom.Duplex := s.left

def radio : Com := s.right.com

def step (serial : ℕ → UInt8) : Wixel → Action → Option Wixel :=
  Relay.step (UsbCom.Duplex.port serial) Host.port

def Allowed (serial : ℕ → UInt8) : Wixel → Action → Prop :=
  Permits (fun s e => s.Allowed serial e) fun _ _ => True

instance (serial : ℕ → UInt8) (a : Action) : Decidable (s.Allowed serial a) :=
  inferInstanceAs (Decidable (Permits _ _ _ _))

/-- The device has been configured, and radioComInit() has been called. -/
def start (c : UsbCom.ComRx) (param_radio_channel : UInt8) : Wixel :=
  ⟨.start c, .init false param_radio_channel, .rest⟩

/-- The bytes from the computer that are not queued for the radio yet. -/
def toRadio : List UInt8 :=
  s.radio.loadedBytes ++ s.stage.hand .toRight ++ (s.usb.rx.out 4).unread

/-- The bytes from the radio that the computer has not read yet. -/
def toComputer : List UInt8 :=
  s.usb.rx.com.ep4.waiting.flatten ++ s.usb.rx.com.ep4.loaded ++ s.stage.hand .toLeft ++
    dataBytes s.radio.unread

variable {s} {serial : ℕ → UInt8} {t : Wixel} {c : UsbCom.ComRx} {channel : UInt8}

theorem passing (hc : UsbCom.Receiver.Ready c) (hf : UsbCom.Fresh c.com)
    (hr : Run (step serial) (Allowed serial) (start c channel) s) :
    Passing UsbCom.Duplex.view Host.portView s := by
  have hstart : Passing UsbCom.Duplex.view Host.portView (start c channel) :=
    ⟨UsbCom.Duplex.valid_start hc hf, Host.valid_init false channel, trivial, rfl, rfl⟩
  exact hstart.run (UsbCom.Duplex.contract serial) Host.contract hr

theorem packets_eq (h : Passing UsbCom.Duplex.view Host.portView s) :
    s.usb.packets.flatten = dataBytes s.radio.link.sent ++ s.toRadio := by
  have hreceived : s.usb.received = Host.portView.sent s.right ++ s.stage.hand .toRight := h.toRight
  have hstream : s.usb.received ++ (s.usb.rx.out 4).unread = s.usb.packets.flatten :=
    h.left.receiver.stream
  have hsent : Host.portView.sent s.right = dataBytes s.radio.link.sent ++ s.radio.loadedBytes :=
    h.right.sent
  rw [← hstream, hreceived, hsent, toRadio]
  simp only [List.append_assoc]

theorem accepted_eq (h : Passing UsbCom.Duplex.view Host.portView s) :
    dataBytes s.radio.link.accepted = s.usb.rx.com.ep4.received.flatten ++ s.toComputer := by
  have hreceived : Host.portView.received s.right = s.usb.sent ++ s.stage.hand .toLeft := h.toLeft
  have haccepted : dataBytes s.radio.link.accepted =
      Host.portView.received s.right ++ dataBytes s.radio.unread := h.right.received
  have hsent : s.usb.rx.com.ep4.committed.flatten ++ s.usb.rx.com.ep4.loaded = s.usb.sent :=
    h.left.station.lossless.bytes
  rw [haccepted, hreceived, ← hsent, toComputer, EndpointIn.committed, List.flatten_append]
  simp only [List.append_assoc]

end Wixel

variable {serial : Bool → ℕ → UInt8} {c : Bool → UsbCom.ComRx} {channel : UInt8}
  {w : Bool → Wixel} {x : Bool}

/-- Two Wixels are started and run, each with its own computer, and each receives with a good CRC only
what the other has transmitted at that moment; the air loses what it wants. As long as both devices
stay configured, every byte from the one computer has been read by the other, or is in one of the two
Wixels, in order. -/
theorem usbToRadioService_delivers (hc : ∀ y, UsbCom.Receiver.Ready (c y))
    (hf : ∀ y, UsbCom.Fresh (c y).com)
    (hw : ∀ y, Run (Wixel.step (serial y)) (Wixel.Allowed (serial y)) (.start (c y) channel) (w y))
    (ht : Run Traffic.step (Traffic.Unmistaken x) (fun y => (w y).radio.passed) fun _ => []) :
    ∃ queued, queued <:+ (w x).radio.link.view.queue ∧
      (w x).usb.packets.flatten = (w !x).usb.rx.com.ep4.received.flatten ++
        (w !x).toComputer ++ dataBytes queued ++ (w x).toRadio := by
  have hpassing := fun y => Wixel.passing (hc y) (hf y) (hw y)
  choose channels hfollows using fun y => (hpassing y).right.traffic
  obtain ⟨queued, hsent, hqueue⟩ := Traffic.delivers hfollows ht
  refine ⟨queued, hqueue, ?_⟩
  rw [Wixel.packets_eq (hpassing x), ← Wixel.accepted_eq (hpassing !x), ← dataBytes_append]
  exact congrArg (dataBytes · ++ (w x).toRadio) hsent

/-! ### One byte -/

/-- A frame is received and the interrupt runs. -/
def heard (frame : List UInt8) : Action :=
  .rightEvent (.interrupts [.dma frame, .event .rx ⟨true, 0⟩])

/-- The radio has something to send, and it has sent it. -/
def strobed : List Action :=
  [.rightEvent (.interrupts [.event .strobe ⟨true, 0⟩]),
    .rightEvent (.interrupts [.event .tx ⟨true, 0⟩])]

/-- The reset frame is acknowledged, and then the byte 7. -/
def sender : List Action :=
  strobed ++ [heard [1, 128], .leftEvent (.packet [7]), .enter, .left [], .right [], .left [],
    .right [], .left [], .right [], .rightEvent (.txService [])] ++ strobed ++ [heard [1, 128]]

/-- The byte is received and goes to the computer. -/
def receiver : List Action :=
  strobed ++ [heard [1, 192], .rightEvent (.interrupts [.event .tx ⟨true, 0⟩]), heard [2, 0, 7],
    .rightEvent (.interrupts [.event .tx ⟨true, 0⟩]), .enter, .left [], .right [], .left [],
    .right [], .left [], .right [], .leftEvent (.service (.packet 0x00 []) 0 []),
    .leftEvent (.hostRead .data)]

/-- The first reset frame of the receiver is lost. -/
def turns : List Turn :=
  [.alone true, .alone true, .alone false, .alone true, .deliver false, .alone false, .deliver true,
    .alone false, .alone true, .deliver false, .alone false, .deliver true]

theorem usbToRadioService_delivers_a_byte : ∃ (w : Bool → Wixel) (queued : List RadioLink.Packet),
    queued <:+ (w false).radio.link.view.queue ∧
    (w false).usb.packets.flatten = (w true).usb.rx.com.ep4.received.flatten ++
      (w true).toComputer ++ dataBytes queued ++ (w false).toRadio ∧
    (w true).usb.rx.com.ep4.received = [[7]] := by
  have hrun : ((exec (Wixel.step fun _ => 0) (Wixel.Allowed fun _ => 0)
      (.start UsbCom.Receiver.ready 0) sender).bind fun s =>
      (exec (Wixel.step fun _ => 0) (Wixel.Allowed fun _ => 0)
        (.start UsbCom.Receiver.ready 0) receiver).bind fun r =>
      (exec Traffic.step (Traffic.Unmistaken false)
        (fun y => (if y then r else s).radio.passed) turns).map fun t =>
      ((t false).isEmpty, (t true).isEmpty, r.usb.rx.com.ep4.received)) =
      some (true, true, [[7]]) := by decide +kernel
  obtain ⟨s, hs, hrun⟩ := Option.bind_eq_some_iff.mp hrun
  obtain ⟨r, hr, hrun⟩ := Option.bind_eq_some_iff.mp hrun
  obtain ⟨t, ht, hobs⟩ := Option.map_eq_some_iff.mp hrun
  simp only [Prod.mk.injEq, List.isEmpty_iff] at hobs
  have hw : ∀ y : Bool, Run (Wixel.step fun _ => 0) (Wixel.Allowed fun _ => 0)
      (.start UsbCom.Receiver.ready 0) (if y then r else s) := by
    intro y
    cases y
    · exact run_of_exec hs
    · exact run_of_exec hr
  have hnone : t = fun _ => [] := by
    funext y
    cases y
    · exact hobs.1
    · exact hobs.2.1
  obtain ⟨queued, hqueued, hbytes⟩ := usbToRadioService_delivers (fun _ => ⟨rfl, rfl⟩)
    (fun _ => ⟨rfl, rfl, rfl, rfl⟩) hw (hnone ▸ run_of_exec ht)
  exact ⟨fun y => if y then r else s, queued, hqueued, hbytes, hobs.2.2⟩

end WixelSdk.WirelessSerial
