import WixelSdk.Relay
import WixelSdk.UsbComNotification
import WixelSdk.UsbComRx

/-!
# The USB COM port in both directions

The receive functions and the transmit functions share USBINDEX and the state of the device. A
`Duplex` is the port with the history of both; it is a `Receiver` and a `Station`, and each call
keeps the invariant of both. As a port of a relay it keeps its `contract` whatever packets the host
sends and reads in between.
-/

namespace WixelSdk.UsbCom
open Usb UsbCdcAcm Relay

/-- The port with the packets that the host has sent, the bytes received and sent, what the last
value of usbComRxAvailable() other than 0 and that of usbComTxAvailable() still allow, and whether
usbComService() has been called since the latter. -/
structure Duplex where
  rx : ComRx
  packets : List (List UInt8)
  received : List UInt8
  rxPromised : ℕ
  sent : List UInt8
  txPromised : ℕ
  serviced : Bool

inductive Event
  | packet (bytes : List UInt8)
  | hostRead (read : HostRead)
  | service (readings : Readings) (now : UInt32) (reads : List (List HostRead))
  | txControlSignals (signals : UInt8)

namespace Duplex

variable (s : Duplex)

def start (c : ComRx) : Duplex := ⟨c, [], [], 0, [], 0, false⟩

def receiver : Receiver := ⟨s.rx, s.packets, s.received, s.rxPromised⟩

def station : Station := ⟨s.rx.com, s.sent, s.txPromised, s.serviced⟩

def setCom (c : Com) : Duplex := { s with rx := { s.rx with com := c } }

def usbComRxAvailable : UInt8 × Duplex :=
  let (n, c) := s.rx.usbComRxAvailable
  (n, { s with rx := c, rxPromised := if n = 0 then s.rxPromised else n.toNat })

def usbComRxReceiveByte : UInt8 × Duplex :=
  let (byte, c) := s.rx.usbComRxReceiveByte
  (byte, { s with
    rx := c, received := s.received ++ [byte], rxPromised := s.rxPromised - 1 })

def usbComTxAvailable (reads : List (List HostRead)) : UInt8 × Duplex :=
  let (n, c) := (s.rx.com.schedule reads).usbComTxAvailable
  (n, { s.setCom c with txPromised := n.toNat, serviced := false })

def usbComTxSendByte (byte : UInt8) (reads : List (List HostRead)) : Duplex :=
  { s.setCom ((s.rx.com.schedule reads).usbComTxSendByte byte) with
    sent := s.sent ++ [byte], txPromised := s.txPromised - 1 }

def event (serial : ℕ → UInt8) : Event → Option Duplex
  | .packet bytes => ((s.rx.out 4).accept bytes).map fun e =>
      { s with rx := s.rx.setOut 4 e, packets := s.packets ++ [bytes] }
  | .hostRead read => some (s.setCom (s.rx.com.hostRead read))
  | .service readings now reads =>
      ((s.rx.com.schedule reads).usbComService serial readings now).map fun c =>
        { s.setCom c with serviced := true }
  | .txControlSignals signals => some (s.setCom (s.rx.com.usbComTxControlSignals signals))

/-- A packet of the host has at most 64 bytes, and the device is and stays configured. -/
def Allowed (serial : ℕ → UInt8) : Event → Prop
  | .packet bytes => bytes.length ≤ 64
  | .service readings _ reads => readings.usbPowerPresent = true ∧ readings.rstif = false ∧
      ((s.rx.com.schedule reads).poll serial readings).device.usbDeviceState = .configured
  | _ => True

instance (serial : ℕ → UInt8) (e : Event) : Decidable (s.Allowed serial e) := by
  rcases e with ⟨⟩ <;> dsimp only [Allowed] <;> infer_instance

/-- The port for a relay. What happens while a call runs is what the host reads. -/
def port (serial : ℕ → UInt8) : Port Duplex UInt8 (List (List HostRead)) Event where
  idle _ := true
  rxAvailable s _ := some (s.usbComRxAvailable.1 != 0, s.usbComRxAvailable.2)
  rxReceiveByte s _ := some s.usbComRxReceiveByte
  txAvailable s reads := some ((s.usbComTxAvailable reads).1 != 0, (s.usbComTxAvailable reads).2)
  txSendByte s byte reads := some (s.usbComTxSendByte byte reads)
  isCall
    | .service _ _ _ => true
    | .txControlSignals _ => true
    | _ => false
  event s e := s.event serial e

structure Valid : Prop where
  receiver : s.receiver.Invariant
  station : s.station.Invariant

def view : View Duplex UInt8 where
  Valid := Valid
  HasByte s := 0 < s.rxPromised
  HasRoom s := 1 ≤ s.txPromised ∧ s.serviced = false
  received := received
  sent := sent

variable {s : Duplex} {serial : ℕ → UInt8} {t : Duplex}

theorem valid_start {c : ComRx} (hc : Receiver.Ready c) (hf : Fresh c.com) : (start c).Valid :=
  ⟨Receiver.invariant_start hc, Station.invariant_start hf⟩

theorem Valid.receiving (h : s.Valid) (hi : Idle s.rx.com t.rx.com) (hr : t.receiver.Invariant)
    (hsent : t.sent = s.sent) (hpromised : t.txPromised = s.txPromised)
    (hserviced : t.serviced = s.serviced) : t.Valid where
  receiver := hr
  station := by
    have hidle := h.station.idle hi
    change Station.Invariant ⟨t.rx.com, t.sent, t.txPromised, t.serviced⟩
    rw [hsent, hpromised, hserviced]
    exact hidle

theorem Valid.sending (h : s.Valid) {c : Com} {sent : List UInt8} {promised : ℕ} {serviced : Bool}
    (ht : Station.Invariant ⟨c, sent, promised, serviced⟩) :
    Valid { s.setCom c with sent := sent, txPromised := promised, serviced := serviced } where
  receiver := ⟨ht.lossless.configured, h.receiver.holds, h.receiver.stream,
    h.receiver.promised⟩
  station := ht

theorem Valid.usbComRxAvailable_eq (h : s.Valid) : s.usbComRxAvailable =
    ((s.rx.out 4).usbcntl, { s with
      rx := s.rx.select 4
      rxPromised := if (s.rx.out 4).usbcntl = 0 then s.rxPromised
        else (s.rx.out 4).usbcntl.toNat }) := by
  have heq : s.rx.usbComRxAvailable = _ :=
    ComRx.usbComRxAvailable_eq h.receiver.configured h.receiver.holds
  simp only [usbComRxAvailable, heq]

theorem Valid.usbComRxAvailable (h : s.Valid) :
    view.Moves [] [] s s.usbComRxAvailable.2 ∧
      (s.usbComRxAvailable.1 ≠ 0 → view.HasByte s.usbComRxAvailable.2) := by
  have hstep : s.receiver.step (fun _ => 0) .rxAvailable = some s.usbComRxAvailable.2.receiver := rfl
  have hr : s.usbComRxAvailable.2.receiver.Invariant := h.receiver.rxAvailable hstep
  rw [h.usbComRxAvailable_eq] at hr ⊢
  refine ⟨⟨h.receiving (s.rx.com.idle_select 4) hr rfl rfl rfl, (List.append_nil _).symm,
    (List.append_nil _).symm⟩, fun hne => ?_⟩
  simp only [view, if_neg hne]
  exact Nat.pos_of_ne_zero fun he => hne (UInt8.toNat_inj.mp he)

theorem Valid.usbComRxReceiveByte (h : s.Valid) (hbyte : view.HasByte s) :
    view.Moves [s.usbComRxReceiveByte.1] [] s s.usbComRxReceiveByte.2 := by
  have hstep : s.receiver.step (fun _ => 0) .rxReceiveByte =
      some s.usbComRxReceiveByte.2.receiver := rfl
  have hr : s.usbComRxReceiveByte.2.receiver.Invariant := h.receiver.rxReceiveByte hbyte hstep
  obtain ⟨byte, rest, hu⟩ := List.exists_cons_of_length_pos
    (Nat.lt_of_lt_of_le hbyte h.receiver.promised)
  obtain ⟨d, hd, hreads⟩ := ComRx.usbComRxReceiveByte_eq h.receiver.holds.le hu
  have heq : s.usbComRxReceiveByte = (byte, { s with
      rx := d, received := s.received ++ [byte], rxPromised := s.rxPromised - 1 }) := by
    have hd' : s.rx.usbComRxReceiveByte = (byte, d) := hd
    simp only [Duplex.usbComRxReceiveByte, hd']
  have hidle : Idle s.rx.com d.com := by
    rw [hreads.com]
    exact Com.idle_select _ 4
  rw [heq] at hr ⊢
  exact ⟨h.receiving hidle hr rfl rfl rfl, rfl, (List.append_nil _).symm⟩

theorem Valid.usbComTxAvailable (h : s.Valid) (reads : List (List HostRead)) :
    view.Moves [] [] s (s.usbComTxAvailable reads).2 ∧
      ((s.usbComTxAvailable reads).1 ≠ 0 → view.HasRoom (s.usbComTxAvailable reads).2) := by
  have hstep : s.station.step (fun _ => 0) (.txAvailable reads) =
      some ⟨(s.rx.com.schedule reads).usbComTxAvailable.2, s.sent,
        (s.rx.com.schedule reads).usbComTxAvailable.1.toNat, false⟩ := rfl
  have hgranted : s.station.Granted (fun _ => 0) (.txAvailable reads) :=
    ⟨trivial, Nat.zero_le _, Or.inl rfl⟩
  have ht := h.station.step hgranted hstep
  refine ⟨⟨h.sending ht, (List.append_nil _).symm, (List.append_nil _).symm⟩, fun hne => ?_⟩
  exact ⟨Nat.pos_of_ne_zero fun he => hne (UInt8.toNat_inj.mp he), rfl⟩

theorem Valid.usbComTxSendByte (h : s.Valid) (hroom : view.HasRoom s) (byte : UInt8)
    (reads : List (List HostRead)) : view.Moves [] [byte] s (s.usbComTxSendByte byte reads) := by
  have hstep : s.station.step (fun _ => 0) (.txSendByte byte reads) =
      some ⟨(s.rx.com.schedule reads).usbComTxSendByte byte, s.sent ++ [byte], s.txPromised - 1,
        s.serviced⟩ := rfl
  have hgranted : s.station.Granted (fun _ => 0) (.txSendByte byte reads) :=
    ⟨trivial, hroom.1, Or.inr hroom.2⟩
  have ht := h.station.step hgranted hstep
  exact ⟨h.sending ht, (List.append_nil _).symm, rfl⟩

theorem Valid.event {e : Event} (h : s.Valid) (ha : s.Allowed serial e)
    (he : s.event serial e = some t) : view.Moves [] [] s t := by
  suffices hvalid : t.Valid ∧ t.received = s.received ∧ t.sent = s.sent from
    ⟨hvalid.1, by rw [List.append_nil]; exact hvalid.2.1, by rw [List.append_nil]; exact hvalid.2.2⟩
  cases e with
  | packet bytes =>
      obtain ⟨e, hacc, rfl⟩ := Option.map_eq_some_iff.mp he
      have hstep : s.receiver.step serial (.packet bytes) =
          some ⟨s.rx.setOut 4 e, s.packets ++ [bytes], s.received, s.rxPromised⟩ :=
        Option.map_eq_some_iff.mpr ⟨e, hacc, rfl⟩
      exact ⟨h.receiving (.refl _) (h.receiver.packet ha hstep) rfl rfl rfl, rfl, rfl⟩
  | hostRead read =>
      obtain rfl := Option.some.inj he
      exact ⟨h.sending (h.station.idle (Com.idle_hostRead _ read)), rfl, rfl⟩
  | service readings now reads =>
      obtain ⟨c, hc, rfl⟩ := Option.map_eq_some_iff.mp he
      have hstep : s.station.step serial (.service readings now reads) =
          some ⟨c, s.sent, s.txPromised, true⟩ := Option.map_eq_some_iff.mpr ⟨c, hc, rfl⟩
      have hstays : s.station.StaysConfigured serial (.service readings now reads) := ha
      exact ⟨h.sending (h.station.step ⟨hstays, Nat.zero_le _, Or.inl rfl⟩ hstep), rfl, rfl⟩
  | txControlSignals signals =>
      obtain rfl := Option.some.inj he
      exact ⟨h.sending (h.station.idle ⟨.refl, rfl, rfl, rfl⟩), rfl, rfl⟩

/-- Only calls of the main loop touch what has been promised. -/
theorem event_promised {e : Event} (hcall : (port serial).isCall e = false)
    (he : s.event serial e = some t) :
    t.rxPromised = s.rxPromised ∧ t.txPromised = s.txPromised ∧ t.serviced = s.serviced := by
  cases e with
  | packet bytes =>
      obtain ⟨e, -, rfl⟩ := Option.map_eq_some_iff.mp he
      exact ⟨rfl, rfl, rfl⟩
  | hostRead read =>
      obtain rfl := Option.some.inj he
      exact ⟨rfl, rfl, rfl⟩
  | service readings now reads => cases hcall
  | txControlSignals signals => cases hcall

theorem contract (serial : ℕ → UInt8) : Contract (port serial) view fun s e => s.Allowed serial e where
  rxAvailable {s t r b} h he := by
    obtain ⟨rfl, rfl⟩ := Prod.mk.inj (Option.some.inj he)
    obtain ⟨hm, hbyte⟩ := h.usbComRxAvailable
    exact ⟨hm, fun hb => hbyte (bne_iff_ne.mp hb)⟩
  rxReceiveByte {s t r a} h hbyte he := by
    have hm := h.usbComRxReceiveByte hbyte
    rw [Option.some.inj he] at hm
    exact hm
  txAvailable {s t r b} h he := by
    obtain ⟨rfl, rfl⟩ := Prod.mk.inj (Option.some.inj he)
    obtain ⟨hm, hroom⟩ := h.usbComTxAvailable r
    exact ⟨hm, fun hb => hroom (bne_iff_ne.mp hb)⟩
  txSendByte {s t r a} h hroom he := by
    obtain rfl := Option.some.inj he
    exact h.usbComTxSendByte hroom a r
  event h ha he := h.event ha he
  hasByte {s t e} _ _ hcall he hbyte := by
    change 0 < t.rxPromised
    rw [(event_promised hcall he).1]
    exact hbyte
  hasRoom {s t e} _ _ hcall he hroom := by
    obtain ⟨-, htx, hserviced⟩ := event_promised hcall he
    change 1 ≤ t.txPromised ∧ t.serviced = false
    rw [htx, hserviced]
    exact hroom

end Duplex

end WixelSdk.UsbCom
