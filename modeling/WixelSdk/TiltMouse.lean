import WixelSdk.RadioQueueReader
import WixelSdk.UsbHidService

/-!
# The receiver of the wireless tilt mouse

`rxMouseState` copies three bytes of the packet at the front of the radio queue to the report of the
mouse, marks the report as updated and gives the packet back, one statement at a time: the radio
interrupt and the host take turns with the main loop between any two of them.
-/

namespace WixelSdk.TiltMouse
open RadioMac RadioQueue Transition
open RadioLink (Buf)
open UsbHid (Interface)

/-- The assignments of rxMouseState(): the offset of x, y or buttons in HID_MOUSE_IN_REPORT, and the
byte of the packet. -/
def assignments : List (ℕ × ℕ) := [(1, 1), (2, 2), (0, 3)]

/-- How many statements have been executed since the packet was found. -/
inductive Stage
  | idle
  | taking (executed : ℕ)
  deriving DecidableEq, Repr

structure Wixel where
  radio : RadioQueue.Station
  hid : UsbHid.Station
  stage : Stage

inductive Action
  | check
  | next
  | radio (a : RadioQueue.Action)
  | hostRead (i : Interface)
  | service (readings : Usb.Readings) (now now' : UInt32) (reads : List (List Interface))

namespace Wixel

variable (s : Wixel)

def check : Wixel :=
  if s.radio.queue.packet.isSome then { s with stage := .taking 0 } else s

/-- The next statement: an assignment, usbHidMouseInputUpdated = 1 or radioQueueRxDoneWithPacket(). -/
def next (serial : ℕ → UInt8) : Option Wixel :=
  match s.stage, s.radio.queue.packet with
  | .taking executed, some p =>
    match assignments[executed]? with
    | some (offset, index) => (s.hid.step serial (.store .mouse offset (p index))).map fun hid =>
        { s with hid := hid, stage := .taking (executed + 1) }
    | none =>
      if executed = assignments.length then (s.hid.step serial (.update .mouse)).map fun hid =>
        { s with hid := hid, stage := .taking (executed + 1) }
      else (s.radio.step (.call .rxDone)).map fun radio => { s with radio := radio, stage := .idle }
  | _, _ => none

def step (serial : ℕ → UInt8) (s : Wixel) : Action → Option Wixel
  | .check => if s.stage = .idle then some s.check else none
  | .next => s.next serial
  | .radio a => (s.radio.step a).map fun radio => { s with radio := radio }
  | .hostRead i => (s.hid.step serial (.hostRead i)).map fun hid => { s with hid := hid }
  | .service readings now now' reads =>
    if s.stage = .idle then
      (s.hid.step serial (.service readings now now' reads)).map fun hid => { s with hid := hid }
    else none

/-- The functions of the radio queue are called by the main loop only, and there is no bus reset and no
loss of power. -/
def Allowed (_ : Wixel) : Action → Prop
  | .radio (.call _) => False
  | .service readings _ _ _ => readings.usbPowerPresent = true ∧ readings.rstif = false
  | _ => True

instance (a : Action) : Decidable (s.Allowed a) := by
  rcases a with _ | _ | (_ | _ | _ | _) | _ | _ <;> dsimp only [Allowed] <;> infer_instance

def start (channel : UInt8) (d : UsbHid.Hid) : Wixel := ⟨.init channel, .start d, .idle⟩

end Wixel

/-- The report for a packet: the buttons, two distances, and a wheel that does not turn. -/
def report (p : Buf) : List UInt8 := [p 3, p 1, p 2, 0]

def filled (p : Buf) (old : List UInt8) (executed : ℕ) : List UInt8 :=
  (assignments.take executed).foldl (fun bytes a => bytes.set a.1 (p a.2)) old

theorem filled_succ {p : Buf} {old : List UInt8} {k : ℕ} {a : ℕ × ℕ}
    (ha : assignments[k]? = some a) : filled p old (k + 1) = (filled p old k).set a.1 (p a.2) := by
  unfold filled
  rw [List.take_add_one, ha, List.foldl_append]
  rfl

theorem filled_length (p : Buf) (a b c : UInt8) :
    filled p [a, b, c, 0] assignments.length = report p := rfl

/-! ### The invariant -/

namespace Wixel

variable {s t : Wixel} {p : Buf}

/-- While the packet `p` is read: the statements executed so far have filled the report with its
bytes and, at the end, marked it as updated. -/
structure Reading (s : Wixel) (executed : ℕ) (p : Buf) : Prop where
  packet : s.radio.queue.packet = some p
  le : executed ≤ assignments.length + 1
  input : ∃ a b c, s.hid.port.input .mouse =
    filled p [a, b, c, 0] (min executed assignments.length)
  versions : s.hid.versions .mouse =
    (s.radio.history.presented ++ if assignments.length < executed then [p] else []).map report

/-- Between two packets the report is the one of the last packet. -/
structure Settled (s : Wixel) : Prop where
  versions : s.hid.versions .mouse = s.radio.history.presented.map report
  input : s.hid.port.input .mouse = s.hid.current .mouse

def Doing (s : Wixel) : Prop :=
  match s.stage with
  | .idle => s.Settled
  | .taking executed => ∃ p, s.Reading executed p

structure Invariant (s : Wixel) : Prop where
  ordered : Ordered s.radio.queue s.radio.history
  hid : s.hid.Invariant
  unused : ∀ i ≠ Interface.mouse, s.hid.port.input i = i.initial ∧ s.hid.versions i = []
  doing : s.Doing

theorem invariant_start {channel : UInt8} {d : UsbHid.Hid} (hd : UsbHid.Station.Fresh d) :
    (start channel d).Invariant := by
  have hinput : ∀ i : Interface, (UsbHid.Station.start d).port.input i = i.initial := by
    intro i
    change (List.range i.input.size).map (d.xdata (.driver i.input)) = _
    rw [hd.zero i, List.map_const', List.length_range]
    rfl
  exact ⟨RadioQueue.Station.ordered_of_run .refl, UsbHid.Station.invariant_start hd,
    fun i _ => ⟨hinput i, rfl⟩, rfl, hinput .mouse⟩

/-- The report of the mouse has room for three bytes and a wheel that does not turn. -/
theorem Settled.exists_input (h : s.Settled) :
    ∃ a b c, s.hid.port.input .mouse = [a, b, c, 0] := by
  rw [h.input, UsbHid.Station.current, h.versions]
  rcases List.eq_nil_or_concat s.radio.history.presented with hnil | ⟨front, p, hlast⟩
  · rw [hnil]
    exact ⟨0, 0, 0, rfl⟩
  · rw [hlast, List.concat_eq_append, List.map_append, List.map_singleton, List.getLast?_concat]
    exact ⟨p 3, p 1, p 2, rfl⟩

theorem Invariant.radio (h : s.Invariant) {a : RadioQueue.Action} {r : RadioQueue.Station}
    (hcall : ∀ c, a ≠ .call c) (hr : s.radio.step a = some r) :
    { s with radio := r }.Invariant := by
  have hdocumented : s.radio.Documented a := by
    cases a with
    | call c => exact absurd rfl (hcall c)
    | _ => exact trivial
  have ho := RadioQueue.Station.ordered_step h.ordered hdocumented hr
  have hkept := kept_step hcall hr
  refine ⟨ho, h.hid, h.unused, ?_⟩
  have hdoing := h.doing
  unfold Doing at hdoing ⊢
  dsimp only
  cases hstage : s.stage with
  | idle =>
      rw [hstage] at hdoing
      exact ⟨hdoing.versions.trans (congrArg _ hkept.presented.symm), hdoing.input⟩
  | taking executed =>
      rw [hstage] at hdoing
      obtain ⟨p, hread⟩ := hdoing
      refine ⟨p, hkept.packet h.ordered ho hread.packet, hread.le, hread.input, ?_⟩
      rw [hread.versions, ← hkept.presented]

theorem Invariant.hostRead (h : s.Invariant) (i : Interface) :
    { s with hid := { s.hid with port := s.hid.port.hostRead i } }.Invariant := by
  have hidle := UsbHid.Idle.hostRead s.hid.port i
  refine ⟨h.ordered, h.hid.step (fun _ => 0) (a := .hostRead i) trivial rfl,
    fun j hj => ⟨(hidle.input j).trans (h.unused j hj).1, (h.unused j hj).2⟩, ?_⟩
  have hdoing := h.doing
  unfold Doing at hdoing ⊢
  dsimp only
  cases hstage : s.stage with
  | idle =>
      rw [hstage] at hdoing
      exact ⟨hdoing.versions, (hidle.input .mouse).trans hdoing.input⟩
  | taking executed =>
      rw [hstage] at hdoing
      obtain ⟨p, hread⟩ := hdoing
      exact ⟨p, hread.packet, hread.le, (hidle.input .mouse).symm ▸ hread.input, hread.versions⟩

/-- The condition of the HID library holds between two packets. -/
theorem Invariant.input_eq_current (h : s.Invariant) (hstage : s.stage = .idle) (i : Interface) :
    s.hid.port.input i = s.hid.current i := by
  have hdoing := h.doing
  rw [Doing, hstage] at hdoing
  by_cases hi : i = .mouse
  · rw [hi]
    exact hdoing.input
  · obtain ⟨hinput, hversions⟩ := h.unused i hi
    rw [hinput, UsbHid.Station.current, hversions]
    rfl

theorem Invariant.service (h : s.Invariant) (serial : ℕ → UInt8) {readings : Usb.Readings}
    {now now' : UInt32} {reads : List (List Interface)} {hid : UsbHid.Station}
    (hstage : s.stage = .idle)
    (hr : readings.usbPowerPresent = true ∧ readings.rstif = false)
    (ht : s.hid.step serial (.service readings now now' reads) = some hid) :
    { s with hid := hid }.Invariant := by
  have hcurrent := h.input_eq_current hstage
  have hhid := h.hid.step serial (a := .service readings now now' reads)
    ⟨hr.1, hr.2, hcurrent⟩ ht
  obtain rfl := Option.some.inj ht
  have hserving := (UsbHid.Station.usbHidService_serves (h.hid.serving hcurrent reads) serial
    readings now now').1
  have hdoing := h.doing
  rw [Doing, hstage] at hdoing
  refine ⟨h.ordered, hhid, fun i hi => ⟨?_, (h.unused i hi).2⟩, ?_⟩
  · exact (hserving.input i).trans ((hcurrent i).symm.trans (h.unused i hi).1)
  · unfold Doing
    dsimp only
    rw [hstage]
    exact ⟨hdoing.versions, hserving.input .mouse⟩

theorem Invariant.check (h : s.Invariant) (hstage : s.stage = .idle) : s.check.Invariant := by
  unfold Wixel.check
  split
  · next hsome =>
      obtain ⟨p, hp⟩ := Option.isSome_iff_exists.mp hsome
      have hdoing := h.doing
      rw [Doing, hstage] at hdoing
      obtain ⟨a, b, c, hinput⟩ := Settled.exists_input hdoing
      refine ⟨h.ordered, h.hid, h.unused, p, hp, Nat.zero_le _, ⟨a, b, c, hinput⟩, ?_⟩
      rw [if_neg (Nat.not_lt_zero _), List.append_nil]
      exact hdoing.versions
  · exact h

/-! ### The statements of rxMouseState -/

/-- What the next statement does with the packet `p`. -/
theorem next_cases {serial : ℕ → UInt8} (ht : s.next serial = some t) {executed : ℕ}
    (hstage : s.stage = .taking executed) (hp : s.radio.queue.packet = some p) :
    (∃ a, assignments[executed]? = some a ∧
      t = { s with
        hid := { s.hid with port := s.hid.port.store .mouse a.1 (p a.2) }
        stage := .taking (executed + 1) }) ∨
    (executed = assignments.length ∧ ∃ hid, s.hid.step serial (.update .mouse) = some hid ∧
      t = { s with hid := hid, stage := .taking (executed + 1) }) ∨
    (assignments.length < executed ∧ ∃ radio, s.radio.step (.call .rxDone) = some radio ∧
      t = { s with radio := radio, stage := .idle }) := by
  unfold next at ht
  rw [hstage, hp] at ht
  dsimp only at ht
  cases ha : assignments[executed]? with
  | some a =>
      rw [ha] at ht
      exact Or.inl ⟨a, rfl, (Option.some.inj ht).symm⟩
  | none =>
      rw [ha] at ht
      dsimp only at ht
      have hle := List.getElem?_eq_none_iff.mp ha
      split at ht
      · next heq =>
          obtain ⟨hid, hhid, rfl⟩ := Option.map_eq_some_iff.mp ht
          exact Or.inr (Or.inl ⟨heq, hid, hhid, rfl⟩)
      · next hne =>
          obtain ⟨radio, hradio, rfl⟩ := Option.map_eq_some_iff.mp ht
          exact Or.inr (Or.inr ⟨Nat.lt_of_le_of_ne hle (Ne.symm hne), radio, hradio, rfl⟩)

theorem Invariant.next (h : s.Invariant) (serial : ℕ → UInt8) (ht : s.next serial = some t) :
    t.Invariant := by
  have hdoing := h.doing
  cases hstage : s.stage with
  | idle =>
      unfold Wixel.next at ht
      rw [hstage] at ht
      cases ht
  | taking executed =>
      rw [Doing, hstage] at hdoing
      obtain ⟨p, hp, hle, ⟨a, b, c, hinput⟩, hversions⟩ := hdoing
      rcases next_cases ht hstage hp with ⟨x, hx, rfl⟩ | ⟨rfl, hid, hhid, rfl⟩ |
        ⟨hlt, radio, hradio, rfl⟩
      · have hlt := (List.getElem?_eq_some_iff.mp hx).1
        have hhid := h.hid.step serial (a := .store .mouse x.1 (p x.2)) trivial rfl
        refine ⟨h.ordered, hhid, fun i hi => ⟨?_, (h.unused i hi).2⟩, p, hp, ?_, ⟨a, b, c, ?_⟩, ?_⟩
        · exact (UsbHid.input_store_of_ne _ hi _ _).trans (h.unused i hi).1
        · exact Nat.succ_le_succ hlt.le
        · rw [Nat.min_eq_left hlt, filled_succ hx]
          rw [Nat.min_eq_left hlt.le] at hinput
          rw [← hinput]
          exact UsbHid.input_store _ _ _ _
        · rw [if_neg (not_lt.mpr hlt)]
          rw [if_neg (not_lt.mpr hlt.le)] at hversions
          exact hversions
      · have hhid' := h.hid.step serial (a := .update .mouse) trivial hhid
        obtain rfl := Option.some.inj hhid
        rw [Nat.min_self] at hinput
        refine ⟨h.ordered, hhid', fun i hi => ⟨(h.unused i hi).1, ?_⟩, p, hp, le_rfl, ⟨a, b, c, ?_⟩,
          ?_⟩
        · exact (Function.update_of_ne hi _ _).trans (h.unused i hi).2
        · rw [Nat.min_eq_right (Nat.le_succ _)]
          exact hinput
        · change Function.update s.hid.versions .mouse _ .mouse = _
          rw [Function.update_self, hversions, if_neg (lt_irrefl _), if_pos (Nat.lt_succ_self _),
            List.append_nil, List.map_append, hinput, filled_length]
          rfl
      · obtain ⟨ho, hpresented⟩ := rxDone_step h.ordered hp hradio
        rw [Nat.min_eq_right hlt.le, filled_length] at hinput
        rw [if_pos hlt, ← hpresented] at hversions
        refine ⟨ho, h.hid, h.unused, hversions, ?_⟩
        change s.hid.port.input .mouse = s.hid.current .mouse
        rw [hinput, UsbHid.Station.current, hversions, hpresented, List.map_append,
          List.map_singleton, List.getLast?_concat]
        rfl

theorem Invariant.step (h : s.Invariant) {serial : ℕ → UInt8} {a : Action} (ha : s.Allowed a)
    (ht : s.step serial a = some t) : t.Invariant := by
  cases a with
  | check =>
      obtain ⟨hstage, he⟩ := Option.ite_none_right_eq_some.mp ht
      obtain rfl := Option.some.inj he
      exact h.check hstage
  | next => exact h.next serial ht
  | radio a =>
      obtain ⟨r, hr, rfl⟩ := Option.map_eq_some_iff.mp ht
      exact h.radio (fun c hc => by rw [hc] at ha; exact ha) hr
  | hostRead i =>
      obtain rfl := Option.some.inj ht
      exact h.hostRead i
  | service readings now now' reads =>
      obtain ⟨hstage, he⟩ := Option.ite_none_right_eq_some.mp ht
      obtain ⟨hid, hhid, rfl⟩ := Option.map_eq_some_iff.mp he
      exact h.service serial hstage ha hhid

/-! ### What the computer gets -/

/-- The packets of interface `i`: those that the computer has read and those that wait. -/
def packets (s : Wixel) (i : Interface) : List (List UInt8) :=
  (s.hid.port.ep i).received ++ (s.hid.port.ep i).waiting

theorem Invariant.versions_prefix (h : s.Invariant) :
    s.hid.versions .mouse <+: s.radio.history.wanted.map report := by
  have hdoing := h.doing
  have hreceived := h.ordered.received
  cases hstage : s.stage with
  | idle =>
      rw [Doing, hstage] at hdoing
      rw [hdoing.versions, ← hreceived]
      exact (List.prefix_append _ _).map _
  | taking executed =>
      rw [Doing, hstage] at hdoing
      obtain ⟨p, hread⟩ := hdoing
      have hhead := (packet_eq_head h.ordered.consistent).symm.trans hread.packet
      obtain ⟨rest, hrest⟩ := List.head?_eq_some_iff.mp hhead
      rw [hread.versions, ← hreceived, hrest]
      apply List.IsPrefix.map
      split
      · exact ⟨rest, by rw [List.append_assoc]; rfl⟩
      · rw [List.append_nil]
        exact List.prefix_append _ _

/-- The mouse moves as the packets say: its reports are those of packets with data that were heard
while fewer than two were waiting, in order and each at most once, in every order of statements,
radio events and accesses by the host without a bus reset or a loss of power. Packets that come too
fast are merged, but when nothing is left to do the last report is the one of the last packet. No key
and no joystick is ever moved. -/
theorem rxMouseState_reports {serial : ℕ → UInt8} {channel : UInt8} {d : UsbHid.Hid}
    (hd : UsbHid.Station.Fresh d) {s : Wixel} (hr : Run (step serial) Allowed (start channel d) s) :
    (∀ i, (s.hid.port.ep i).overruns = 0) ∧
    (s.packets .mouse).Sublist (s.radio.history.wanted.map report) ∧
    (s.stage = .idle → s.radio.queue.packet = none → s.hid.port.updated .mouse = false →
      s.radio.history.wanted ≠ [] →
      (s.packets .mouse).getLast? = (s.radio.history.wanted.map report).getLast?) ∧
    (∀ r ∈ s.packets .keyboard, r = Interface.keyboard.initial) ∧
    s.packets .joystick = [] := by
  have h : s.Invariant := hr.invariant (invariant_start hd) fun _ _ _ hi ha ht => hi.step ha ht
  refine ⟨fun i => (h.hid.tracked i).overruns, ?_, ?_, ?_, ?_⟩
  · exact ((h.hid.tracked .mouse).sublist (by decide)).trans h.versions_prefix.sublist
  · intro hstage hpacket hupdated hne
    have hdoing := h.doing
    rw [Doing, hstage] at hdoing
    have hrx : s.radio.queue.rxPackets = [] :=
      List.head?_eq_none_iff.mp ((packet_eq_head h.ordered.consistent).symm.trans hpacket)
    have hpresented := h.ordered.received
    rw [hrx, List.append_nil] at hpresented
    have hversions := hdoing.versions
    rw [hpresented] at hversions
    rw [← hversions]
    exact (h.hid.tracked .mouse).getLast_of_updated hupdated
      (hversions ▸ fun hnil => hne (List.map_eq_nil_iff.mp hnil))
  · intro r hr
    obtain ⟨counts, n, hm, -⟩ := (h.hid.tracked .keyboard).mirrors
    have hlength := hm.length
    rw [(h.unused .keyboard (by decide)).2] at hlength hm
    obtain rfl : counts = [] := List.length_eq_zero_iff.mp (Nat.succ_inj.mp hlength).symm
    have htaken : s.packets .keyboard = _ := hm.taken
    rw [htaken] at hr
    exact List.eq_of_mem_replicate ((List.append_nil _).subst (motive := fun l => r ∈ l) hr)
  · have hsub := (h.hid.tracked .joystick).sublist (by decide)
    rw [(h.unused .joystick (by decide)).2] at hsub
    exact List.sublist_nil.mp hsub

/-- Three packets, of which the second and third are merged. -/
theorem rxMouseState_reports_merged : ∃ s : Wixel,
    ((s.hid.port.ep .mouse).received = [[0, 10, 20, 0], [1, 50, 60, 0]] ∧
      s.radio.history.wanted.map report = [[0, 10, 20, 0], [0, 30, 40, 0], [1, 50, 60, 0]]) ∧
    (s.packets .mouse).Sublist (s.radio.history.wanted.map report) := by
  have hrun : (exec (Wixel.step fun _ => 0) Allowed (start 0 UsbHid.Station.configured)
      ([.radio (.event .strobe ⟨true, 0⟩), .radio (.dma [3, 10, 20, 0]),
        .radio (.event .rx ⟨true, 0⟩), .check, .next, .next, .hostRead .mouse, .next, .next, .next,
        .service UsbHid.Station.quiet 0 0 [], .hostRead .mouse, .radio (.dma [3, 30, 40, 0]),
        .radio (.event .rx ⟨true, 0⟩), .radio (.dma [3, 50, 60, 1]), .check, .next,
        .radio (.event .rx ⟨true, 0⟩), .next, .next, .next, .next, .check] ++
        List.replicate 5 .next ++
        [.service UsbHid.Station.quiet 0 0 [], .hostRead .mouse])).map
      (fun s => ((s.hid.port.ep .mouse).received, s.radio.history.wanted.map report)) =
      some ([[0, 10, 20, 0], [1, 50, 60, 0]],
        [[0, 10, 20, 0], [0, 30, 40, 0], [1, 50, 60, 0]]) := by
    decide +kernel
  obtain ⟨s, hr, hs⟩ := exists_run_of_exec hrun
  obtain ⟨-, hsub, -⟩ := rxMouseState_reports UsbHid.Station.fresh_configured hr
  exact ⟨s, Prod.mk.injEq .. ▸ hs, hsub⟩

end Wixel
end WixelSdk.TiltMouse
