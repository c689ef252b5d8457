import WixelSdk.UsbComStream

/-!
# The receive path of the USB COM port

An OUT endpoint holds one packet of the host: OUTPKT_RDY is set and USBCNTL is the number of its
bytes that have not been read. The next packet is accepted when OUTPKT_RDY has been cleared, which
`usb_cdc_acm.c` does when the last byte of a packet has been read. USBCSOL and USBCNTL belong to the
endpoint in USBINDEX.
-/

namespace WixelSdk.Usb

structure EndpointOut where
  outpktRdy : Bool
  unread : List UInt8
  deriving DecidableEq, Repr

namespace EndpointOut

variable (e : EndpointOut)

def free : EndpointOut := ⟨false, []⟩

def accept (packet : List UInt8) : Option EndpointOut :=
  if e.outpktRdy then none else some ⟨true, packet⟩

def usbcntl : UInt8 := UInt8.ofNat e.unread.length

/-- The FIFO register is read: the byte, and the endpoint afterwards. -/
def read : UInt8 × EndpointOut := (e.unread.headD 0, { e with unread := e.unread.tail })

def release : EndpointOut := { e with outpktRdy := false }

/-- OUTPKT_RDY is set while there are bytes to read. -/
structure Holds (e : EndpointOut) : Prop where
  outpktRdy : e.unread ≠ [] → e.outpktRdy = true
  le : e.unread.length ≤ 64

/-- The packet that is held has bytes to read, so that it will be released. -/
def Unblocked (e : EndpointOut) : Prop := e.outpktRdy = true → e.unread ≠ []

theorem usbcntl_eq_zero_iff {e : EndpointOut} (hl : e.unread.length ≤ 64) :
    e.usbcntl = 0 ↔ e.unread = [] := by
  rw [usbcntl, ← UInt8.toNat_inj, UInt8.toNat_ofNat', ← List.length_eq_zero_iff]
  change e.unread.length % 256 = 0 ↔ _
  omega

theorem usbcntl_toNat {e : EndpointOut} (hl : e.unread.length ≤ 64) :
    e.usbcntl.toNat = e.unread.length := by
  rw [usbcntl, UInt8.toNat_ofNat']
  exact Nat.mod_eq_of_lt (by omega)

theorem release_eq_self {e : EndpointOut} (h : e.outpktRdy = false) : e.release = e := by
  unfold release
  rw [← h]

end EndpointOut
end WixelSdk.Usb

namespace WixelSdk.UsbCom
open Usb UsbCdcAcm Transition

/-- The port with its OUT endpoints. -/
structure ComRx where
  com : Com
  out : UInt8 → EndpointOut

namespace ComRx

variable (c : ComRx)

def select (endpointNumber : UInt8) : ComRx := { c with com := c.com.select endpointNumber }

/-- The endpoint that USBCSOL and USBCNTL belong to. -/
def selected : EndpointOut := c.out c.com.device.usbindex

def setOut (endpointNumber : UInt8) (e : EndpointOut) : ComRx :=
  { c with out := Function.update c.out endpointNumber e }

def clearOutpktRdy : ComRx := c.setOut c.com.device.usbindex c.selected.release

def readData : UInt8 × ComRx := ((c.out 4).read.1, c.setOut 4 (c.out 4).read.2)

def usbComRxAvailable : UInt8 × ComRx :=
  if c.com.device.usbDeviceState ≠ .configured then (0, c)
  else
    let d := c.select 4
    if d.selected.outpktRdy then (d.selected.usbcntl, d) else (0, d)

def usbComRxReceiveByte : UInt8 × ComRx :=
  let (tmp, d) := (c.select 4).readData
  (tmp, if d.selected.usbcntl = 0 then d.clearOutpktRdy else d)

def receiveBytes : ℕ → ComRx → List UInt8 × ComRx
  | 0, c => ([], c)
  | n + 1, c =>
      let (byte, d) := c.usbComRxReceiveByte
      let (bytes, e) := receiveBytes n d
      (byte :: bytes, e)

def usbComService (serial : ℕ → UInt8) (r : Readings) (now : UInt32)
    (reads : List (List HostRead)) : Option ComRx :=
  ((c.com.schedule reads).usbComService serial r now).map fun d => { c with com := d }

end ComRx

/-! ### Runs -/

/-- The port with the packets that the host has sent, the bytes that have been received and how many
more the last value of usbComRxAvailable() other than 0 allows. -/
structure Receiver where
  rx : ComRx
  packets : List (List UInt8)
  received : List UInt8
  promised : ℕ

inductive RxAction
  | packet (bytes : List UInt8)
  | rxAvailable
  | rxReceiveByte
  | service (readings : Readings) (now : UInt32) (reads : List (List HostRead))

namespace Receiver

variable (s : Receiver)

def start (c : ComRx) : Receiver := ⟨c, [], [], 0⟩

def step (serial : ℕ → UInt8) (s : Receiver) : RxAction → Option Receiver
  | .packet bytes => ((s.rx.out 4).accept bytes).map fun e =>
      { s with rx := s.rx.setOut 4 e, packets := s.packets ++ [bytes] }
  | .rxAvailable =>
      let (n, c) := s.rx.usbComRxAvailable
      some { s with rx := c, promised := if n = 0 then s.promised else n.toNat }
  | .rxReceiveByte =>
      let (byte, c) := s.rx.usbComRxReceiveByte
      some { s with rx := c, received := s.received ++ [byte], promised := s.promised - 1 }
  | .service readings now reads =>
      (s.rx.usbComService serial readings now reads).map fun c => { s with rx := c }

/-- The packets have up to 64 bytes, the device stays configured, and no more bytes are received
than usbComRxAvailable() allows. -/
def Rule (serial : ℕ → UInt8) (s : Receiver) : RxAction → Prop
  | .packet bytes => bytes.length ≤ 64
  | .rxAvailable => True
  | .rxReceiveByte => 0 < s.promised
  | .service readings _ reads => readings.usbPowerPresent = true ∧ readings.rstif = false ∧
      ((s.rx.com.schedule reads).poll serial readings).device.usbDeviceState = .configured

/-- A packet of the host has at least one byte. -/
def HasBytes : RxAction → Prop
  | .packet bytes => bytes ≠ []
  | _ => True

instance (serial : ℕ → UInt8) (a : RxAction) : Decidable (s.Rule serial a) := by
  rcases a with ⟨⟩ <;> dsimp only [Rule] <;> infer_instance

instance (a : RxAction) : Decidable (HasBytes a) := by
  rcases a with ⟨⟩ <;> dsimp only [HasBytes] <;> infer_instance

/-- The bytes are received in order. When usbComRxAvailable() returns 0, no packet is held, and the
calls of usbComRxReceiveByte() that it allows release the packet. -/
structure Delivers : Prop where
  bytes : s.received <+: s.packets.flatten
  free : s.rx.usbComRxAvailable.1 = 0 → (s.rx.usbComRxAvailable.2.out 4).outpktRdy = false
  drained : ∀ bytes c, ComRx.receiveBytes s.rx.usbComRxAvailable.1.toNat s.rx.usbComRxAvailable.2 =
    (bytes, c) → s.received ++ bytes = s.packets.flatten ∧ (c.out 4).outpktRdy = false

end Receiver

/-! ### The functions -/

namespace ComRx

variable {c d : ComRx}

theorem usbComRxAvailable_of_held (hs : c.com.device.usbDeviceState = .configured)
    (hr : (c.out 4).outpktRdy = true) :
    c.usbComRxAvailable = ((c.out 4).usbcntl, c.select 4) := by
  unfold usbComRxAvailable
  rw [if_neg (not_not.mpr hs)]
  exact if_pos hr

theorem usbComRxAvailable_of_free (hs : c.com.device.usbDeviceState = .configured)
    (hr : (c.out 4).outpktRdy = false) : c.usbComRxAvailable = (0, c.select 4) := by
  unfold usbComRxAvailable
  rw [if_neg (not_not.mpr hs)]
  exact if_neg (Bool.eq_false_iff.mp hr)

theorem usbComRxAvailable_eq (hs : c.com.device.usbDeviceState = .configured)
    (he : (c.out 4).Holds) : c.usbComRxAvailable = ((c.out 4).usbcntl, c.select 4) := by
  by_cases hr : (c.out 4).outpktRdy = true
  · exact usbComRxAvailable_of_held hs hr
  · have hnil : (c.out 4).unread = [] := not_not.mp fun hne => hr (he.outpktRdy hne)
    rw [(EndpointOut.usbcntl_eq_zero_iff he.le).mpr hnil]
    exact usbComRxAvailable_of_free hs (Bool.eq_false_iff.mpr hr)

@[simp] theorem setOut_self (c : ComRx) (n : UInt8) (e : EndpointOut) :
    (c.setOut n e).out n = e := by
  unfold setOut
  exact Function.update_self n e c.out

theorem setOut_of_ne {m n : UInt8} (hn : m ≠ n) (c : ComRx) (e : EndpointOut) :
    (c.setOut n e).out m = c.out m := by
  unfold setOut
  exact Function.update_of_ne hn e c.out

theorem setOut_setOut (c : ComRx) (n : UInt8) (e f : EndpointOut) :
    (c.setOut n e).setOut n f = c.setOut n f := by
  unfold setOut
  dsimp only
  rw [Function.update_idem]

theorem setOut_eq_self {n : UInt8} {e : EndpointOut} (he : c.out n = e) : c.setOut n e = c := by
  unfold setOut
  rw [← he, Function.update_eq_self]

theorem selected_setOut (c : ComRx) (e : EndpointOut) : ((c.select 4).setOut 4 e).selected = e :=
  setOut_self (c.select 4) 4 e

theorem clearOutpktRdy_setOut (c : ComRx) (e : EndpointOut) :
    ((c.select 4).setOut 4 e).clearOutpktRdy = (c.select 4).setOut 4 e.release := by
  have htwice : ((c.select 4).setOut 4 e).clearOutpktRdy =
      ((c.select 4).setOut 4 e).setOut 4 e.release := by
    unfold clearOutpktRdy
    rw [selected_setOut]
    rfl
  rw [htwice, setOut_setOut]

/-- The byte has been read from the data endpoint, and no other endpoint has been touched. -/
structure Reads (c : ComRx) (byte : UInt8) (rest : List UInt8) (d : ComRx) : Prop where
  com : d.com = c.com.select 4
  data : d.out 4 = ⟨(c.out 4).outpktRdy && decide (rest ≠ []), rest⟩
  others : ∀ n ≠ 4, d.out n = c.out n

theorem usbComRxReceiveByte_eq {byte : UInt8} {rest : List UInt8}
    (hl : (c.out 4).unread.length ≤ 64) (hu : (c.out 4).unread = byte :: rest) :
    ∃ d, c.usbComRxReceiveByte = (byte, d) ∧ Reads c byte rest d := by
  have hrest : rest.length ≤ 64 := by
    rw [hu, List.length_cons] at hl
    omega
  have hread : (c.select 4).readData =
      (byte, (c.select 4).setOut 4 ⟨(c.out 4).outpktRdy, rest⟩) := by
    unfold readData EndpointOut.read
    change ((c.out 4).unread.headD 0,
      (c.select 4).setOut 4 ⟨(c.out 4).outpktRdy, (c.out 4).unread.tail⟩) = _
    rw [hu]
    rfl
  have hsel := selected_setOut c ⟨(c.out 4).outpktRdy, rest⟩
  have hzero : (EndpointOut.mk (c.out 4).outpktRdy rest).usbcntl = 0 ↔ rest = [] :=
    EndpointOut.usbcntl_eq_zero_iff hrest
  have hbyte : c.usbComRxReceiveByte = (byte,
      if (EndpointOut.mk (c.out 4).outpktRdy rest).usbcntl = 0 then
        ((c.select 4).setOut 4 ⟨(c.out 4).outpktRdy, rest⟩).clearOutpktRdy
      else (c.select 4).setOut 4 ⟨(c.out 4).outpktRdy, rest⟩) := by
    rw [usbComRxReceiveByte, hread]
    dsimp only
    rw [hsel]
  refine ⟨_, hbyte, ?_⟩
  by_cases hnil : rest = []
  · rw [if_pos (hzero.mpr hnil), clearOutpktRdy_setOut, hnil]
    refine ⟨rfl, ?_, fun n hn => setOut_of_ne hn _ _⟩
    rw [setOut_self, decide_eq_false (not_not.mpr rfl), Bool.and_false]
    rfl
  · rw [if_neg fun hc => hnil (hzero.mp hc)]
    refine ⟨rfl, ?_, fun n hn => setOut_of_ne hn _ _⟩
    rw [setOut_self, decide_eq_true hnil, Bool.and_true]

theorem Reads.holds {byte : UInt8} {rest : List UInt8} (h : Reads c byte rest d)
    (he : (c.out 4).Holds) (hu : (c.out 4).unread = byte :: rest) : (d.out 4).Holds where
  outpktRdy hne := by
    rw [h.data] at hne ⊢
    have hr : (c.out 4).outpktRdy = true := he.outpktRdy (by simp [hu])
    rw [hr, Bool.true_and, decide_eq_true_eq]
    exact hne
  le := by
    have hle := he.le
    rw [hu, List.length_cons] at hle
    rw [h.data]
    dsimp only
    omega

theorem Reads.unblocked {byte : UInt8} {rest : List UInt8} (h : Reads c byte rest d) :
    (d.out 4).Unblocked := by
  rw [EndpointOut.Unblocked, h.data, Bool.and_eq_true, decide_eq_true_eq]
  exact And.right

theorem receiveBytes_eq (he : (c.out 4).Holds) (hb : (c.out 4).Unblocked) :
    ∃ d, receiveBytes (c.out 4).unread.length c = ((c.out 4).unread, d) ∧
      (d.out 4).outpktRdy = false := by
  generalize hu : (c.out 4).unread = bytes
  induction bytes generalizing c with
  | nil => exact ⟨c, rfl, Bool.eq_false_iff.mpr fun hr => hb hr hu⟩
  | cons byte rest ih =>
      obtain ⟨d, hd, hreads⟩ := usbComRxReceiveByte_eq he.le hu
      have hrest : (d.out 4).unread = rest := by rw [hreads.data]
      obtain ⟨e, hbytes, hfree⟩ := ih (hreads.holds he hu) hreads.unblocked hrest
      refine ⟨e, ?_, hfree⟩
      rw [List.length_cons, receiveBytes, hd]
      dsimp only
      rw [hbytes]

end ComRx

/-! ### One step -/

namespace Receiver

variable {serial : ℕ → UInt8} {s t u : Receiver} {a : RxAction} {c : ComRx}

/-- A packet is accepted when the one before it has been released. -/
theorem packet_eq {bytes : List UInt8} (he : s.step serial (.packet bytes) = some t) :
    (s.rx.out 4).outpktRdy = false ∧
      t = { s with rx := s.rx.setOut 4 ⟨true, bytes⟩, packets := s.packets ++ [bytes] } := by
  obtain ⟨e, haccept, rfl⟩ := Option.map_eq_some_iff.mp he
  unfold EndpointOut.accept at haccept
  split_ifs at haccept with hr
  obtain rfl := Option.some.inj haccept
  exact ⟨Bool.eq_false_iff.mpr hr, rfl⟩

theorem rxAvailable_eq (hs : s.rx.com.device.usbDeviceState = .configured)
    (hl : (s.rx.out 4).unread.length ≤ 64) (he : s.step serial .rxAvailable = some t) :
    ∃ n, t = { s with rx := s.rx.select 4, promised := n } ∧
      (n = s.promised ∨ n = (s.rx.out 4).unread.length) := by
  by_cases hr : (s.rx.out 4).outpktRdy = true
  · simp only [step, ComRx.usbComRxAvailable_of_held hs hr] at he
    refine ⟨_, (Option.some.inj he).symm, ?_⟩
    split_ifs
    · exact Or.inl rfl
    · exact Or.inr (EndpointOut.usbcntl_toNat hl)
  · simp only [step, ComRx.usbComRxAvailable_of_free hs (Bool.eq_false_iff.mpr hr), if_true] at he
    exact ⟨_, (Option.some.inj he).symm, Or.inl rfl⟩

/-- A byte that has been promised is the next one of the packet. -/
theorem rxReceiveByte_eq (hp : 0 < s.promised) (hpromised : s.promised ≤ (s.rx.out 4).unread.length)
    (hl : (s.rx.out 4).unread.length ≤ 64) (he : s.step serial .rxReceiveByte = some t) :
    ∃ byte rest d, (s.rx.out 4).unread = byte :: rest ∧ ComRx.Reads s.rx byte rest d ∧
      s.promised - 1 ≤ rest.length ∧
      t = { s with rx := d, received := s.received ++ [byte], promised := s.promised - 1 } := by
  obtain ⟨byte, rest, hu⟩ := List.exists_cons_of_length_pos (Nat.lt_of_lt_of_le hp hpromised)
  obtain ⟨d, hd, hreads⟩ := ComRx.usbComRxReceiveByte_eq hl hu
  simp only [step, hd] at he
  rw [hu, List.length_cons] at hpromised
  exact ⟨byte, rest, d, hu, hreads, Nat.sub_le_of_le_add hpromised, (Option.some.inj he).symm⟩

/-- usbComService() does not touch the packet. -/
theorem service_eq {readings : Readings} {now : UInt32} {reads : List (List HostRead)}
    (hr : s.Rule serial (.service readings now reads))
    (he : s.step serial (.service readings now reads) = some t) :
    ∃ com : Com, com.device.usbDeviceState = .configured ∧
      t = { s with rx := { s.rx with com := com } } := by
  obtain ⟨c, hc, rfl⟩ := Option.map_eq_some_iff.mp he
  obtain ⟨d, hd, rfl⟩ := Option.map_eq_some_iff.mp hc
  exact ⟨d, usbComService_configured hr.2.2 hd, rfl⟩

/-! ### What every run keeps -/

/-- Configured, with no packet held. -/
structure Ready (c : ComRx) : Prop where
  configured : c.com.device.usbDeviceState = .configured
  free : c.out 4 = .free

structure Invariant (s : Receiver) : Prop where
  configured : s.rx.com.device.usbDeviceState = .configured
  holds : (s.rx.out 4).Holds
  stream : s.received ++ (s.rx.out 4).unread = s.packets.flatten
  promised : s.promised ≤ (s.rx.out 4).unread.length

theorem invariant_start (h : Ready c) : (start c).Invariant where
  configured := h.configured
  holds := by
    change (c.out 4).Holds
    rw [h.free]
    exact ⟨fun hne => absurd rfl hne, by decide⟩
  stream := by
    change [] ++ (c.out 4).unread = []
    rw [h.free]
    rfl
  promised := Nat.zero_le _

theorem Invariant.accepts (h : s.Invariant) {bytes : List UInt8}
    (he : s.step serial (.packet bytes) = some t) : (s.rx.out 4).unread = [] ∧
      t = { s with rx := s.rx.setOut 4 ⟨true, bytes⟩, packets := s.packets ++ [bytes] } := by
  obtain ⟨hr, ht⟩ := packet_eq he
  exact ⟨not_not.mp fun hne => Bool.eq_false_iff.mp hr (h.holds.outpktRdy hne), ht⟩

theorem Invariant.promised_eq_zero (h : s.Invariant) (hnil : (s.rx.out 4).unread = []) :
    s.promised = 0 := by
  have hpromised := h.promised
  rw [hnil] at hpromised
  exact Nat.le_zero.mp hpromised

theorem Invariant.packet (h : s.Invariant) {bytes : List UInt8} (hl : bytes.length ≤ 64)
    (he : s.step serial (.packet bytes) = some t) : t.Invariant := by
  obtain ⟨hnil, rfl⟩ := h.accepts he
  have hstream := h.stream
  rw [hnil, List.append_nil] at hstream
  refine ⟨h.configured, ?_, ?_, Nat.le_trans (Nat.le_of_eq (h.promised_eq_zero hnil)) ?_⟩
  · rw [ComRx.setOut_self]
    exact ⟨fun _ => rfl, hl⟩
  · rw [ComRx.setOut_self, List.flatten_append, List.flatten_singleton, hstream]
  · exact Nat.zero_le _

theorem Invariant.rxAvailable (h : s.Invariant) (he : s.step serial .rxAvailable = some t) :
    t.Invariant := by
  obtain ⟨n, rfl, hn⟩ := rxAvailable_eq h.configured h.holds.le he
  refine ⟨h.configured, h.holds, h.stream, ?_⟩
  rcases hn with rfl | rfl
  · exact h.promised
  · exact Nat.le_refl _

theorem Invariant.rxReceiveByte (h : s.Invariant) (hp : 0 < s.promised)
    (he : s.step serial .rxReceiveByte = some t) : t.Invariant := by
  obtain ⟨byte, rest, d, hu, hreads, hle, rfl⟩ := rxReceiveByte_eq hp h.promised h.holds.le he
  refine ⟨?_, hreads.holds h.holds hu, ?_, ?_⟩
  · dsimp only
    rw [hreads.com]
    exact h.configured
  · have hstream := h.stream
    rw [hu] at hstream
    rw [hreads.data, List.append_assoc]
    exact hstream
  · rw [hreads.data]
    exact hle

theorem Invariant.step (h : s.Invariant) (hr : s.Rule serial a) (he : s.step serial a = some t) :
    t.Invariant := by
  cases a with
  | packet bytes => exact h.packet hr he
  | rxAvailable => exact h.rxAvailable he
  | rxReceiveByte => exact h.rxReceiveByte hr he
  | service readings now reads =>
      obtain ⟨com, hcom, rfl⟩ := service_eq hr he
      exact ⟨hcom, h.holds, h.stream, h.promised⟩

/-! ### Runs in which every packet has bytes -/

/-- Only an empty packet blocks the endpoint. -/
theorem Invariant.unblocked (h : s.Invariant) (hb : (s.rx.out 4).Unblocked)
    (hr : s.Rule serial a) (ha : HasBytes a) (he : s.step serial a = some t) :
    (t.rx.out 4).Unblocked := by
  cases a with
  | packet bytes =>
      obtain ⟨-, rfl⟩ := h.accepts he
      rw [ComRx.setOut_self]
      exact fun _ => ha
  | rxAvailable =>
      obtain ⟨n, rfl, -⟩ := rxAvailable_eq h.configured h.holds.le he
      exact hb
  | rxReceiveByte =>
      obtain ⟨byte, rest, d, -, hreads, -, rfl⟩ := rxReceiveByte_eq hr h.promised h.holds.le he
      exact hreads.unblocked
  | service readings now reads =>
      obtain ⟨com, -, rfl⟩ := service_eq hr he
      exact hb

theorem Invariant.delivers (h : s.Invariant) (hb : (s.rx.out 4).Unblocked) : s.Delivers := by
  have havailable := ComRx.usbComRxAvailable_eq h.configured h.holds
  refine ⟨⟨(s.rx.out 4).unread, h.stream⟩, fun hzero => ?_, fun bytes c hc => ?_⟩
  · rw [havailable] at hzero ⊢
    have hnil := (EndpointOut.usbcntl_eq_zero_iff h.holds.le).mp hzero
    exact Bool.eq_false_iff.mpr fun hr => hb hr hnil
  · obtain ⟨d, hd, hfree⟩ := ComRx.receiveBytes_eq (c := s.rx.select 4) h.holds hb
    rw [havailable, EndpointOut.usbcntl_toNat h.holds.le] at hc
    obtain ⟨rfl, rfl⟩ := Prod.mk.inj (hd.symm.trans hc)
    exact ⟨h.stream, hfree⟩

/-! ### An empty packet -/

/-- A packet without bytes is held. -/
structure Wedged (s : Receiver) : Prop where
  configured : s.rx.com.device.usbDeviceState = .configured
  held : s.rx.out 4 = ⟨true, []⟩
  promised : s.promised = 0

theorem Wedged.available (h : s.Wedged) : s.rx.usbComRxAvailable = (0, s.rx.select 4) := by
  rw [ComRx.usbComRxAvailable_of_held h.configured (by rw [h.held]), h.held]
  rfl

theorem Wedged.step (h : s.Wedged) (hr : s.Rule serial a) (he : s.step serial a = some t) :
    t.Wedged := by
  cases a with
  | packet bytes =>
      simp only [Receiver.step, h.held] at he
      cases he
  | rxAvailable =>
      have hnil : (s.rx.out 4).unread = [] := by rw [h.held]
      have hzero := congrArg List.length hnil
      obtain ⟨n, rfl, hn⟩ := rxAvailable_eq h.configured (by rw [hzero]; decide) he
      exact ⟨h.configured, h.held, hn.elim (·.trans h.promised) (·.trans hzero)⟩
  | rxReceiveByte =>
      have hp : 0 < s.promised := hr
      rw [h.promised] at hp
      cases hp
  | service readings now reads =>
      obtain ⟨com, hcom, rfl⟩ := service_eq hr he
      exact ⟨hcom, h.held, h.promised⟩

theorem Invariant.wedged (h : s.Invariant) (he : s.step serial (.packet []) = some t) :
    t.Wedged := by
  obtain ⟨hnil, rfl⟩ := h.accepts he
  exact ⟨h.configured, ComRx.setOut_self _ _ _, h.promised_eq_zero hnil⟩

/-- If no packet is empty, everything is delivered. After an empty packet, usbComRxAvailable()
returns 0 and the packet is held, for ever. -/
theorem run_delivers (serial : ℕ → UInt8) (c : ComRx) (s : Receiver) (hc : Ready c)
    (hr : Run (step serial) (fun s a => s.Rule serial a ∧ HasBytes a) (start c) s) : s.Delivers ∧
    ∀ t u, s.step serial (.packet []) = some t → Run (step serial) (Rule serial) t u →
      u.rx.usbComRxAvailable.1 = 0 ∧ (u.rx.usbComRxAvailable.2.out 4).outpktRdy = true := by
  have hstart : ((start c).rx.out 4).Unblocked := by
    change (c.out 4).Unblocked
    rw [hc.free]
    exact fun hr => absurd hr Bool.false_ne_true
  obtain ⟨h, hb⟩ : s.Invariant ∧ (s.rx.out 4).Unblocked :=
    hr.invariant (I := fun s => s.Invariant ∧ (s.rx.out 4).Unblocked)
      ⟨invariant_start hc, hstart⟩ fun _ _ _ h ha he =>
        ⟨h.1.step ha.1 he, h.1.unblocked h.2 ha.1 ha.2 he⟩
  refine ⟨h.delivers hb, fun t u ht hu => ?_⟩
  have hw : u.Wedged := hu.invariant (h.wedged ht) fun _ _ _ h ha he => h.step ha he
  rw [hw.available]
  exact ⟨rfl, congrArg EndpointOut.outpktRdy hw.held⟩

def ready : ComRx := ⟨configured, fun _ => .free⟩

/-- Two packets are read, with a call of usbComService() in between. -/
theorem run_delivers_two :
    ∃ s, Run (step fun _ => 0) (fun s a => s.Rule (fun _ => 0) a ∧ HasBytes a) (start ready) s ∧
      s.Delivers ∧ s.received = [1, 2, 3] := by
  have hrun : (exec (step fun _ => 0) (fun s a => s.Rule (fun _ => 0) a ∧ HasBytes a)
      (start ready) [.packet [1, 2], .rxAvailable, .rxReceiveByte,
        .service (.packet 0x00 []) 0 [], .rxReceiveByte, .packet [3], .rxAvailable,
        .rxReceiveByte]).map Receiver.received = some [1, 2, 3] := by
    decide +kernel
  obtain ⟨s, hr, hs⟩ := exists_run_of_exec hrun
  exact ⟨s, hr, (run_delivers (fun _ => 0) ready s ⟨rfl, rfl⟩ hr).1, hs⟩

/-- The host sends a packet of length zero. -/
theorem not_run_delivers_of_empty :
    ¬ ∀ s, Run (step fun _ => 0) (Rule fun _ => 0) (start ready) s → s.Delivers := by
  intro h
  have hrun : (exec (step fun _ => 0) (Rule fun _ => 0) (start ready)
      [.packet [7], .rxAvailable, .rxReceiveByte, .packet []]).map
      (fun s => (s.rx.usbComRxAvailable.1, (s.rx.usbComRxAvailable.2.out 4).outpktRdy)) =
      some (0, true) := by
    decide +kernel
  obtain ⟨s, hr, hs⟩ := exists_run_of_exec hrun
  obtain ⟨hzero, hheld⟩ := Prod.mk.inj hs
  rw [(h s hr).free hzero] at hheld
  cases hheld

end Receiver
end WixelSdk.UsbCom
