import WixelSdk.UartFifo
import WixelSdk.UsbComPort

/-!
# The USB-to-serial adapter

usbToUartService() of the app `usb_serial` passes bytes on between the USB COM port and UART 1, and
then the control lines. It is a relay between two ports: `lossless` follows every byte from the
computer to the TX pin, and from the RX pin to the computer, whatever the two interrupts and the host
do between any two steps of the main loop.
-/

namespace WixelSdk.Uart
open Transition Relay

/-- What happens between two calls of the main loop, and between the steps of a call. -/
inductive Interrupt
  | next
  | txFlag
  | isrUtx
  | isrUrx (csr undbuf : UInt8)
  deriving DecidableEq, Repr

def Interrupt.action : Interrupt → Action
  | .next => .next
  | .txFlag => .txFlag
  | .isrUtx => .isrUtx
  | .isrUrx csr undbuf => .isrUrx csr undbuf

/-- The byte that a call of uartNRxReceiveByte() is about to return. -/
def MainLoop.returning : MainLoop → List UInt8
  | .receiving byte => [byte]
  | _ => []

namespace Station

def port : Relay.Port Station UInt8 Unit Interrupt where
  idle s := decide (s.mainLoop = .idle)
  rxAvailable s _ := (s.step .rxAvailable).map fun t => (s.uart.uartNRxAvailable != 0, t)
  rxReceiveByte s _ := (s.step .rxReceiveByte).map fun t => (s.uart.currentRxByte, t)
  txAvailable s _ := (s.step .txAvailable).map fun t => (s.uart.uartNTxAvailable != 0, t)
  txSendByte s byte _ := s.step (.txSendByte byte)
  isCall _ := false
  event s e := s.step e.action

def view : View Station UInt8 where
  Valid := Invariant
  HasByte s := 1 ≤ s.rxPromised
  HasRoom s := 1 ≤ s.txPromised
  received s := s.history.returned ++ s.mainLoop.returning
  sent s := s.history.sent

variable {s t : Station}

/-- Between two calls nothing is sent, and what is returned has been read before. -/
structure Same (s t : Station) : Prop where
  sent : t.history.sent = s.history.sent
  received : t.history.returned ++ t.mainLoop.returning =
    s.history.returned ++ s.mainLoop.returning
  rxPromised : t.rxPromised = s.rxPromised
  txPromised : t.txPromised = s.txPromised

theorem same_next (hs : s.next = some t) : Same s t := by
  obtain ⟨u, m, tp, rp, h⟩ := s
  cases m with
  | idle => cases hs
  | sending buffer =>
      cases buffer <;> obtain rfl := Option.some.inj hs <;> exact ⟨rfl, rfl, rfl, rfl⟩
  | stored byte buffer =>
      obtain rfl := Option.some.inj hs
      exact ⟨rfl, rfl, rfl, rfl⟩
  | advanced buffer =>
      obtain rfl := Option.some.inj hs
      exact ⟨rfl, rfl, rfl, rfl⟩
  | receiving byte =>
      obtain rfl := Option.some.inj hs
      refine ⟨?_, ?_, rfl, rfl⟩
      · simp [History.sentBytes]
      · simp [History.returned?, MainLoop.returning]

theorem same_event {e : Interrupt} (hs : s.step e.action = some t) : Same s t := by
  cases e with
  | next => exact same_next hs
  | txFlag =>
      obtain rfl := Option.some.inj hs
      exact ⟨rfl, rfl, rfl, rfl⟩
  | isrUtx =>
      simp only [Interrupt.action, step] at hs
      split_ifs at hs
      obtain rfl := Option.some.inj hs
      refine ⟨?_, ?_, rfl, rfl⟩
      · cases hb : s.uart.isrUtx.2 <;> simp [transmit, hb, History.sentBytes]
      · cases hb : s.uart.isrUtx.2 <;> simp [transmit, hb, History.returned?]
  | isrUrx csr undbuf =>
      simp only [Interrupt.action, step] at hs
      split_ifs at hs
      obtain rfl := Option.some.inj hs
      refine ⟨?_, ?_, rfl, rfl⟩
      · simp [receive, History.sentBytes]
      · simp [receive, History.returned?]

theorem documented_interrupt (s : Station) (e : Interrupt) : s.Documented e.action := by
  cases e <;> trivial

theorem contract : Contract port view fun _ _ => True where
  rxAvailable {s t r b} h he := by
    obtain ⟨u, hu, heq⟩ := Option.map_eq_some_iff.mp he
    obtain ⟨rfl, rfl⟩ := Prod.mk.inj heq
    have hinv := invariant_step h (a := .rxAvailable) trivial hu
    obtain ⟨-, rfl⟩ := call_eq_some hu
    refine ⟨⟨hinv, (List.append_nil _).symm, (List.append_nil _).symm⟩, fun hb => ?_⟩
    exact Nat.pos_of_ne_zero fun hz => bne_iff_ne.mp hb (UInt8.toNat_inj.mp hz)
  rxReceiveByte {s t r a} h hbyte he := by
    obtain ⟨u, hu, heq⟩ := Option.map_eq_some_iff.mp he
    obtain ⟨rfl, rfl⟩ := Prod.mk.inj heq
    have hinv := invariant_step h (a := .rxReceiveByte) hbyte hu
    obtain ⟨hidle, rfl⟩ := call_eq_some hu
    refine ⟨hinv, ?_, (List.append_nil _).symm⟩
    simp [view, hidle, MainLoop.returning]
  txAvailable {s t r b} h he := by
    obtain ⟨u, hu, heq⟩ := Option.map_eq_some_iff.mp he
    obtain ⟨rfl, rfl⟩ := Prod.mk.inj heq
    have hinv := invariant_step h (a := .txAvailable) trivial hu
    obtain ⟨-, rfl⟩ := call_eq_some hu
    refine ⟨⟨hinv, (List.append_nil _).symm, (List.append_nil _).symm⟩, fun hb => ?_⟩
    exact Nat.pos_of_ne_zero fun hz => bne_iff_ne.mp hb (UInt8.toNat_inj.mp hz)
  txSendByte {s t r a} h hroom he := by
    have hinv := invariant_step h (a := .txSendByte a) hroom he
    obtain ⟨hidle, rfl⟩ := call_eq_some he
    refine ⟨hinv, ?_, ?_⟩
    · simp [view, startSend, hidle, MainLoop.returning, History.returned?]
    · simp [view, startSend, History.sentBytes]
  event {s t e} h _ he := by
    have hsame := same_event he
    refine ⟨invariant_step h (documented_interrupt s e) he, ?_, ?_⟩
    · rw [List.append_nil]
      exact hsame.received
    · rw [List.append_nil]
      exact hsame.sent
  hasByte _ _ _ he hbyte := Nat.le_trans hbyte (Nat.le_of_eq (same_event he).rxPromised.symm)
  hasRoom _ _ _ he hroom := Nat.le_trans hroom (Nat.le_of_eq (same_event he).txPromised.symm)

end Station

end WixelSdk.Uart

namespace WixelSdk.UsbSerial
open Usb UsbCom Transition Relay

def acmControlLineDtr : UInt8 := 1

def acmControlLineRts : UInt8 := 2

def acmSerialStateRxCarrier : UInt8 := 1

def acmSerialStateTxCarrier : UInt8 := 2

/-- The port on the left is the USB port, and P1_0 and P1_1 are output pins. -/
structure Wixel where
  relay : State Duplex Uart.Station UInt8
  p1_0 : Bool
  p1_1 : Bool

/-- `controlLines` is the end of usbToUartService(), reading the two input pins. -/
inductive Action
  | relay (a : Relay.Action (List (List HostRead)) Unit Event Uart.Interrupt)
  | controlLines (p1_2 p1_3 : Bool)

namespace Wixel

variable (s : Wixel)

def usb : Duplex := s.relay.left

def uart1 : Uart.Station := s.relay.right

def usbComRxControlSignals : UInt8 := s.usb.rx.com.device.vars.usbComControlLineState

def signals (p1_2 p1_3 : Bool) : UInt8 :=
  (if p1_2 then 0 else acmSerialStateTxCarrier) ||| if p1_3 then 0 else acmSerialStateRxCarrier

def passBytes (serial : ℕ → UInt8)
    (a : Relay.Action (List (List HostRead)) Unit Event Uart.Interrupt) :
    Option (State Duplex Uart.Station UInt8) :=
  Relay.step (Duplex.port serial) Uart.Station.port s.relay a

def step (serial : ℕ → UInt8) (s : Wixel) : Action → Option Wixel
  | .relay a => (s.passBytes serial a).map fun r => { s with relay := r }
  | .controlLines p1_2 p1_3 =>
      (s.passBytes serial (.leftEvent (.txControlSignals (signals p1_2 p1_3)))).map fun r =>
        { relay := r
          p1_0 := decide (s.usbComRxControlSignals &&& acmControlLineDtr = 0)
          p1_1 := decide (s.usbComRxControlSignals &&& acmControlLineRts = 0) }

def Allowed (serial : ℕ → UInt8) (s : Wixel) : Action → Prop
  | .relay a => Permits (fun s e => s.Allowed serial e) (fun _ _ => True) s.relay a
  | .controlLines _ _ => True

instance (serial : ℕ → UInt8) (a : Action) : Decidable (s.Allowed serial a) := by
  rcases a with ⟨⟩ <;> dsimp only [Allowed] <;> infer_instance

/-- The device has been configured, and uart1Init() has been called. -/
def start (c : ComRx) : Wixel := ⟨⟨.start c, .init, .rest⟩, false, false⟩

/-- The bytes in the Wixel that go to the TX pin, the first one to be transmitted first. -/
def toUart : List UInt8 :=
  s.uart1.uart.txBytes ++ s.uart1.mainLoop.unsent ++ s.relay.stage.hand .toRight ++
    (s.usb.rx.out 4).unread

/-- The bytes in the RX ring, without the one that is being returned. -/
def unreturned : List UInt8 := s.uart1.uart.rxBytes.drop s.uart1.mainLoop.returning.length

/-- The bytes in the Wixel that go to the computer. -/
def toComputer : List UInt8 :=
  s.usb.rx.com.ep4.waiting.flatten ++ s.usb.rx.com.ep4.loaded ++ s.relay.stage.hand .toLeft ++
    s.unreturned

/-- Every byte from the computer has been transmitted or is in the Wixel, and every byte from the RX
pin that was accepted has been read by the computer or is in the Wixel. If a byte was not accepted
although it had no error, uart1RxBufferFullOccurred says so. -/
structure Lossless : Prop where
  toUart : s.usb.packets.flatten = s.uart1.history.transmitted ++ s.toUart
  toComputer : s.uart1.history.accepted = s.usb.rx.com.ep4.received.flatten ++ s.toComputer
  toUart_le : s.toUart.length ≤ 320
  toComputer_le : s.toComputer.length ≤ 384
  overruns : s.usb.rx.com.ep4.overruns = 0
  full : s.uart1.uart.uartNRxBufferFullOccurred = s.uart1.history.overflowed

variable {s} {serial : ℕ → UInt8} {t : Wixel} {a : Action}

def PassingBytes (s : Wixel) : Prop := Passing Duplex.view Uart.Station.view s.relay

theorem PassingBytes.step (h : s.PassingBytes) (ha : s.Allowed serial a)
    (hs : s.step serial a = some t) : t.PassingBytes := by
  cases a with
  | relay a =>
      obtain ⟨r, hr, rfl⟩ := Option.map_eq_some_iff.mp hs
      exact Passing.step h (Duplex.contract serial) Uart.Station.contract ha hr
  | controlLines p1_2 p1_3 =>
      obtain ⟨r, hr, rfl⟩ := Option.map_eq_some_iff.mp hs
      exact Passing.step h (Duplex.contract serial) Uart.Station.contract
        (a := .leftEvent (.txControlSignals (signals p1_2 p1_3))) trivial hr

theorem passingBytes_start {c : ComRx} (hc : Receiver.Ready c) (hf : Fresh c.com) :
    (start c).PassingBytes where
  left := Duplex.valid_start hc hf
  right := Uart.Station.invariant_init
  promised := trivial
  toRight := rfl
  toLeft := rfl

theorem length_hand_le {α : Type*} (stage : Stage α) (d : Direction) : (stage.hand d).length ≤ 1 := by
  cases stage with
  | send d' a =>
      simp only [Stage.hand]
      split_ifs <;> simp
  | _ => exact Nat.zero_le 1

/-- The packets that wait for the host have up to 64 bytes each. -/
theorem length_flatten_le {packets : List (List UInt8)} (h : ∀ p ∈ packets, p.length ≤ 64) :
    packets.flatten.length ≤ 64 * packets.length := by
  induction packets with
  | nil => exact Nat.le_refl 0
  | cons p packets ih =>
      have hp := h p List.mem_cons_self
      have hrest := ih fun x hx => h x (List.mem_cons_of_mem _ hx)
      rw [List.flatten_cons, List.length_append, List.length_cons]
      omega

theorem PassingBytes.toUart (h : s.PassingBytes) :
    s.usb.packets.flatten = s.uart1.history.transmitted ++ s.toUart := by
  have hreceived : s.usb.received = s.uart1.history.sent ++ s.relay.stage.hand .toRight := h.toRight
  have hstream : s.usb.received ++ (s.usb.rx.out 4).unread = s.usb.packets.flatten :=
    h.left.receiver.stream
  have hsent : s.uart1.history.transmitted ++ s.uart1.uart.txBytes ++ s.uart1.mainLoop.unsent =
      s.uart1.history.sent := h.right.tx.bytes
  rw [← hstream, hreceived, ← hsent, Wixel.toUart]
  simp only [List.append_assoc]

/-- The byte that is being returned is the first one in the ring. -/
theorem rxBytes_eq (h : s.PassingBytes) :
    s.uart1.uart.rxBytes = s.uart1.mainLoop.returning ++ s.unreturned := by
  have hroom := h.right.rx.room
  have hbyte := h.right.rx.receiving
  unfold unreturned
  cases hm : s.uart1.mainLoop with
  | receiving byte =>
      have hm' : s.relay.right.mainLoop = .receiving byte := hm
      rw [hm'] at hroom
      have hne : s.uart1.uart.uartRxBufferMainLoopIndex ≠ s.uart1.uart.uartRxBufferInterruptIndex := by
        intro he
        have hzero : s.relay.right.uart.uartNRxAvailable.toNat = 0 := by
          change (s.uart1.uart.uartRxBufferInterruptIndex -
            s.uart1.uart.uartRxBufferMainLoopIndex).toNat = 0
          rw [he, UInt8.sub_self]
          rfl
        rw [hzero] at hroom
        simp only [Uart.MainLoop.toReturn] at hroom
        omega
      have hcons : s.uart1.uart.rxBytes = s.uart1.uart.currentRxByte ::
          s.uart1.uart.advanceRxMainLoopIndex.rxBytes := ByteRing.contents_cons _ hne
      have hcurrent : s.uart1.uart.currentRxByte = byte := hbyte byte hm'
      rw [hcons, hcurrent]
      rfl
  | _ => rfl

theorem PassingBytes.toComputer (h : s.PassingBytes) :
    s.uart1.history.accepted = s.usb.rx.com.ep4.received.flatten ++ s.toComputer := by
  have hreceived : s.uart1.history.returned ++ s.uart1.mainLoop.returning =
      s.usb.sent ++ s.relay.stage.hand .toLeft := h.toLeft
  have haccepted : s.uart1.history.returned ++ s.uart1.uart.rxBytes = s.uart1.history.accepted :=
    h.right.rx.bytes
  have hsent : s.usb.rx.com.ep4.committed.flatten ++ s.usb.rx.com.ep4.loaded = s.usb.sent :=
    h.left.station.lossless.bytes
  rw [← haccepted, rxBytes_eq h, ← List.append_assoc, hreceived, ← hsent, Wixel.toComputer,
    EndpointIn.committed, List.flatten_append]
  simp only [List.append_assoc]

theorem PassingBytes.toUart_le (h : s.PassingBytes) : s.toUart.length ≤ 320 := by
  have hroom := h.right.tx.room
  have hunread : (s.usb.rx.out 4).unread.length ≤ 64 := h.left.receiver.holds.le
  have hhand := length_hand_le s.relay.stage .toRight
  have htx : s.uart1.uart.txBytes.length = (s.relay.right.uart.uartTxBufferMainLoopIndex -
      s.relay.right.uart.uartTxBufferInterruptIndex).toNat := ByteRing.length_contents _
  have hunsent : s.uart1.mainLoop.unsent.length = s.relay.right.mainLoop.unsent.length := rfl
  simp only [Wixel.toUart, List.length_append]
  omega

theorem PassingBytes.toComputer_le (h : s.PassingBytes) : s.toComputer.length ≤ 384 := by
  have hl := h.left.station.lossless
  have hfill : s.usb.rx.com.ep4.loaded.length + 64 * s.usb.rx.com.ep4.waiting.length ≤ 128 := hl.fits
  have hwaiting : s.usb.rx.com.ep4.waiting.flatten.length ≤ 64 * s.usb.rx.com.ep4.waiting.length :=
    length_flatten_le fun p hp => hl.sizes p (List.mem_append_right _ hp)
  have hhand := length_hand_le s.relay.stage .toLeft
  have hrx : s.uart1.uart.rxBytes.length < 256 := by
    have hlen : s.uart1.uart.rxBytes.length = _ := ByteRing.length_contents _
    rw [hlen]
    exact UInt8.toNat_lt _
  have hunreturned : s.unreturned.length ≤ s.uart1.uart.rxBytes.length := by
    unfold unreturned
    rw [List.length_drop]
    exact Nat.sub_le _ _
  simp only [Wixel.toComputer, List.length_append]
  omega

theorem PassingBytes.lossless (h : s.PassingBytes) : s.Lossless where
  toUart := h.toUart
  toComputer := h.toComputer
  toUart_le := h.toUart_le
  toComputer_le := h.toComputer_le
  overruns := h.left.station.lossless.overruns
  full := h.right.rx.full

/-- As long as the device stays configured, the adapter loses no byte and changes no order, in either
direction, whatever the two interrupts and the host do between any two steps of the main loop. -/
theorem usbToUartService_lossless {c : ComRx} (hc : Receiver.Ready c) (hf : Fresh c.com)
    (hr : Run (step serial) (Allowed serial) (start c) s) : s.Lossless := by
  have h : s.PassingBytes := hr.invariant (passingBytes_start hc hf)
    fun _ _ _ h ha hs => h.step ha hs
  exact h.lossless

/-- Two bytes go to the TX pin, the second one while a byte from the RX pin goes to the computer. -/
def exchange : List Action :=
  [.relay (.leftEvent (.packet [5, 6])), .relay .enter, .relay (.left []), .relay (.right ()),
    .relay (.left []), .relay (.right ()), .relay (.rightEvent .next), .relay (.rightEvent .next),
    .relay (.rightEvent .next), .relay (.rightEvent .isrUtx), .relay (.rightEvent .next),
    .relay (.left []), .relay (.right ()), .relay (.left []), .relay (.right ()),
    .relay (.rightEvent .next), .relay (.rightEvent .next), .relay (.rightEvent (.isrUrx 0 9)),
    .relay (.rightEvent .next), .relay (.rightEvent .next), .relay (.rightEvent .txFlag),
    .relay (.rightEvent .isrUtx), .relay (.left []), .relay (.right ()), .relay (.left []),
    .relay (.right ()), .relay (.rightEvent .next), .relay (.left []), .relay (.right ()),
    .controlLines true false, .relay (.leftEvent (.service (.packet 0x00 []) 0 [])),
    .relay (.leftEvent (.hostRead .data))]

theorem usbToUartService_lossless_exchange : ∃ s : Wixel, s.Lossless ∧
    (s.uart1.history.transmitted, s.usb.rx.com.ep4.received, s.p1_0) = ([5, 6], [[9]], true) := by
  have hrun : (exec (step fun _ => 0) (Allowed fun _ => 0) (start Receiver.ready) exchange).map
      (fun s => (s.uart1.history.transmitted, s.usb.rx.com.ep4.received, s.p1_0)) =
      some ([5, 6], [[9]], true) := by
    decide +kernel
  obtain ⟨s, hr, hs⟩ := exists_run_of_exec hrun
  exact ⟨s, usbToUartService_lossless ⟨rfl, rfl⟩ ⟨rfl, rfl, rfl, rfl⟩ hr, hs⟩

end Wixel

end WixelSdk.UsbSerial
