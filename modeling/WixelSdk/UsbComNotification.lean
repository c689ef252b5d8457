import WixelSdk.Latch
import WixelSdk.UsbComStream

/-!
# Serial-state notifications

usbComSerialState holds the levels of CD and DSR, which stay, and the irregular signals, which are
cleared when a notification has been queued. usbComService() queues one when the state is not the one
that was reported last and the endpoint has a free buffer. `log` lists the events raised and the
notifications queued, so that the irregular signals are a latch.
-/

namespace WixelSdk.UsbCom
open Usb UsbCdcAcm Transition Latch

namespace Com

variable (c : Com)

def usbComTxControlSignals (signals : UInt8) : Com :=
  c.setVars { c.device.vars with
    usbComSerialState := c.device.vars.usbComSerialState &&& acmIrregularSignalMask ||| signals }

def usbComTxControlSignalEvents (signalEvents : UInt8) : Com :=
  c.setVars { c.device.vars with
    usbComSerialState := c.device.vars.usbComSerialState ||| signalEvents }

/-- The bits of usbComSerialState that are not irregular signals. -/
def regular (signals : UInt8) : UInt8 := signals &&& ~~~acmIrregularSignalMask

def notification (state : UInt8) : List UInt8 := [0xA1, 0x20, 0, 0, 0, 0, 2, 0, state, 0]

def queued (c d : Com) : List UInt8 :=
  (d.ep1.committed.drop c.ep1.committed.length).map fun packet => packet.getD 8 0

end Com

/-- Bit `i` is an irregular signal, and it is set. -/
def Irregular (i : ℕ) (signals : UInt8) : Prop :=
  (signals &&& Com.acmIrregularSignalMask).toNat.testBit i = true

/-- The port with the levels last passed to usbComTxControlSignals(). -/
structure Notifier where
  com : Com
  levels : UInt8
  log : List (Entry UInt8)

inductive NotifierAction
  | txControlSignals (signals : UInt8)
  | txControlSignalEvents (signalEvents : UInt8)
  | service (readings : Readings) (now : UInt32) (reads : List (List HostRead))
  | hostRead (read : HostRead)

namespace Notifier

variable (s : Notifier)

/-- What usbComSerialState holds has been passed to the two functions before. -/
def start (c : Com) : Notifier where
  com := c
  levels := Com.regular c.device.vars.usbComSerialState
  log := [.raised c.device.vars.usbComSerialState]

def step (serial : ℕ → UInt8) (s : Notifier) : NotifierAction → Option Notifier
  | .txControlSignals signals =>
      some { s with com := s.com.usbComTxControlSignals signals, levels := signals }
  | .txControlSignalEvents signalEvents =>
      some { s with
        com := s.com.usbComTxControlSignalEvents signalEvents
        log := s.log ++ [.raised signalEvents] }
  | .service readings now reads =>
      ((s.com.schedule reads).usbComService serial readings now).map fun d =>
        { s with com := d, log := s.log ++ (s.com.queued d).map .reported }
  | .hostRead read => some { s with com := s.com.hostRead read }

/-- The levels are bits 0 and 1, the events are irregular signals, and the device stays
configured. -/
def Rule (serial : ℕ → UInt8) (s : Notifier) : NotifierAction → Prop
  | .txControlSignals signals => signals ≤ 3
  | .txControlSignalEvents signalEvents => Com.regular signalEvents = 0
  | .service readings _ reads =>
      ((s.com.schedule reads).poll serial readings).device.usbDeviceState = .configured
  | .hostRead _ => True

instance (serial : ℕ → UInt8) (a : NotifierAction) : Decidable (s.Rule serial a) := by
  rcases a with ⟨⟩ <;> dsimp only [Rule] <;> infer_instance

def notified : List UInt8 := s.log.filterMap Entry.reported?

end Notifier

/-! ### The bits of the serial state -/

theorem or_and (a b m : UInt8) : (a ||| b) &&& m = a &&& m ||| b &&& m := by
  refine UInt8.toNat_inj.mp ?_
  rw [UInt8.toNat_and, UInt8.toNat_or, UInt8.toNat_or, UInt8.toNat_and, UInt8.toNat_and,
    Nat.and_or_distrib_right]

theorem irregular_or {i : ℕ} {a b : UInt8} :
    Irregular i (a ||| b) ↔ Irregular i a ∨ Irregular i b := by
  unfold Irregular
  rw [or_and, UInt8.toNat_or, Nat.testBit_or, Bool.or_eq_true]

theorem not_irregular_of_eq {i : ℕ} {a : UInt8} (h : a &&& Com.acmIrregularSignalMask = 0) :
    ¬ Irregular i a := by
  unfold Irregular
  rw [h, UInt8.toNat_zero, Nat.zero_testBit]
  exact Bool.false_ne_true

theorem not_irregular_regular {i : ℕ} {a : UInt8} : ¬ Irregular i (Com.regular a) := by
  refine not_irregular_of_eq ?_
  rw [Com.regular, UInt8.and_assoc, UInt8.not_and_self, UInt8.and_zero]

theorem irregular_and_mask {i : ℕ} {a : UInt8} :
    Irregular i (a &&& Com.acmIrregularSignalMask) ↔ Irregular i a := by
  unfold Irregular
  rw [UInt8.and_assoc, UInt8.and_self]

theorem regular_or (a b : UInt8) : Com.regular (a ||| b) = Com.regular a ||| Com.regular b :=
  or_and a b _

theorem regular_regular (a : UInt8) : Com.regular (Com.regular a) = Com.regular a := by
  rw [Com.regular, Com.regular, UInt8.and_assoc, UInt8.and_self]

theorem regular_and_mask (a : UInt8) : Com.regular (a &&& Com.acmIrregularSignalMask) = 0 := by
  rw [Com.regular, UInt8.and_assoc, UInt8.and_not_self, UInt8.and_zero]

theorem level_bits {signals : UInt8} (h : signals ≤ 3) :
    signals &&& Com.acmIrregularSignalMask = 0 ∧ Com.regular signals = signals := by
  have hall : ∀ v : BitVec 8, UInt8.ofBitVec v ≤ 3 →
      UInt8.ofBitVec v &&& Com.acmIrregularSignalMask = 0 ∧
        Com.regular (UInt8.ofBitVec v) = UInt8.ofBitVec v := by
    decide +kernel
  exact hall signals.toBitVec h

theorem and_three {a : UInt8} (h : Com.regular a ≤ 3) : a &&& 3 = Com.regular a := by
  have hall : ∀ v : BitVec 8, Com.regular (UInt8.ofBitVec v) ≤ 3 →
      UInt8.ofBitVec v &&& 3 = Com.regular (UInt8.ofBitVec v) := by
    decide +kernel
  exact hall a.toBitVec h

theorem ne_of_regular_le {a : UInt8} (h : Com.regular a ≤ 3) : a ≠ 0xFF := fun ha =>
  absurd (ha ▸ h) (by decide)

/-! ### The notification endpoint -/

/-- The host may have read notifications; nothing else has happened to them. -/
structure Undisturbed (c d : Com) : Prop where
  ep1 : c.ep1.ReadFrom d.ep1
  usbComSerialState : d.device.vars.usbComSerialState = c.device.vars.usbComSerialState
  lastReportedSerialState :
    d.device.vars.lastReportedSerialState = c.device.vars.lastReportedSerialState

namespace Undisturbed

variable {c d e : Com}

theorem trans (h : Undisturbed c d) (h' : Undisturbed d e) : Undisturbed c e where
  ep1 := h.ep1.trans h'.ep1
  usbComSerialState := h'.usbComSerialState.trans h.usbComSerialState
  lastReportedSerialState := h'.lastReportedSerialState.trans h.lastReportedSerialState

end Undisturbed

namespace Com

variable {c d : Com}

theorem hostRead_ep1 (c : Com) (read : HostRead) : c.ep1.ReadFrom (c.hostRead read).ep1 := by
  cases read with
  | data => exact .refl
  | notification => exact .read

theorem hostReads_ep1 (c : Com) (reads : List HostRead) :
    c.ep1.ReadFrom (reads.foldl hostRead c).ep1 := by
  induction reads generalizing c with
  | nil => exact .refl
  | cons read reads ih => exact (hostRead_ep1 c read).trans (ih (c.hostRead read))

theorem host_ep1 (c : Com) : c.ep1.ReadFrom c.host.ep1 := hostReads_ep1 c _

theorem undisturbed_host (c : Com) (endpointNumber : UInt8) :
    Undisturbed c (c.select endpointNumber).host := by
  refine ⟨(c.select endpointNumber).host_ep1, ?_, ?_⟩ <;> rw [host_device] <;> rfl

theorem undisturbed_sendPacketNow (c : Com) : Undisturbed c c.sendPacketNow := by
  have hindex : (c.select 4).host.device.usbindex = 4 := by
    rw [host_device]
    rfl
  have hset : (c.select 4).host.setInpktRdy =
      { (c.select 4).host with ep4 := (c.select 4).host.ep4.commit } := if_pos hindex
  have hhost := c.undisturbed_host 4
  unfold sendPacketNow
  dsimp only
  rw [hset]
  exact ⟨hhost.ep1, hhost.usbComSerialState, hhost.lastReportedSerialState⟩

theorem undisturbed_serviceData (c : Com) : Undisturbed c c.serviceData := by
  unfold serviceData
  dsimp only
  split_ifs
  · exact (c.undisturbed_host 4).trans (undisturbed_sendPacketNow _)
  · exact c.undisturbed_host 4

theorem writeNotifications_spec (bytes : List UInt8) (c : Com) (hw : c.ep1.waiting.length < 2) :
    (bytes.foldl writeNotification c).ep1.committed = c.ep1.committed ∧
    (bytes.foldl writeNotification c).ep1.waiting.length ≤ c.ep1.waiting.length ∧
    (bytes.foldl writeNotification c).ep1.loaded = c.ep1.loaded ++ bytes := by
  induction bytes generalizing c with
  | nil => exact ⟨rfl, Nat.le_refl _, (List.append_nil _).symm⟩
  | cons byte bytes ih =>
      have hread := c.host_ep1
      have hfree : c.host.ep1.waiting.length < 2 := Nat.lt_of_le_of_lt hread.waiting hw
      have hwrite : (c.writeNotification byte).ep1 =
          { c.host.ep1 with loaded := c.host.ep1.loaded ++ [byte] } :=
        EndpointIn.write_of_free hfree byte
      obtain ⟨hcommitted, hwaiting, hloaded⟩ := ih (c.writeNotification byte) (by rwa [hwrite])
      rw [hwrite] at hcommitted hwaiting hloaded
      refine ⟨hcommitted.trans hread.committed, Nat.le_trans hwaiting hread.waiting, ?_⟩
      rw [List.foldl_cons, hloaded, hread.loaded, List.append_assoc]
      rfl

/-- What the part of usbComService() for notifications does. -/
structure Notifies (c d : Com) : Prop where
  ne : c.device.vars.usbComSerialState ≠ c.device.vars.lastReportedSerialState
  committed : d.ep1.committed = c.ep1.committed ++ [notification c.device.vars.usbComSerialState]
  loaded : d.ep1.loaded = []
  usbComSerialState :
    d.device.vars.usbComSerialState = regular c.device.vars.usbComSerialState
  lastReportedSerialState :
    d.device.vars.lastReportedSerialState = regular c.device.vars.usbComSerialState

theorem Notifies.undisturbed {e : Com} (h : Undisturbed c d) (h' : Notifies d e) :
    Notifies c e where
  ne := by
    rw [← h.usbComSerialState, ← h.lastReportedSerialState]
    exact h'.ne
  committed := by rw [h'.committed, h.ep1.committed, h.usbComSerialState]
  loaded := h'.loaded
  usbComSerialState := by rw [h'.usbComSerialState, h.usbComSerialState]
  lastReportedSerialState := by rw [h'.lastReportedSerialState, h.usbComSerialState]

/-- The bytes of the notification are written and committed. -/
theorem committed_notification (hl : c.ep1.loaded = []) (hw : c.ep1.waiting.length < 2)
    (hindex : c.device.usbindex = 1) (state : UInt8) :
    ((notification state).foldl writeNotification c).host.setInpktRdy.ep1.committed =
      c.ep1.committed ++ [notification state] ∧
    ((notification state).foldl writeNotification c).host.setInpktRdy.ep1.loaded = [] := by
  obtain ⟨hcommitted, hwaiting, hloaded⟩ := writeNotifications_spec (notification state) c hw
  have hdevice := (notification_spec (notification state) c).2
  generalize (notification state).foldl writeNotification c = d at *
  have hread := d.host_ep1
  have hset : d.host.setInpktRdy = { d.host with ep1 := d.host.ep1.commit } := by
    have hn : d.host.device.usbindex = 1 := by rw [host_device, hdevice, hindex]
    unfold setInpktRdy
    rw [hn, if_neg (by decide), if_pos rfl]
  have hfree : d.host.ep1.waiting.length < 2 :=
    Nat.lt_of_le_of_lt (Nat.le_trans hread.waiting hwaiting) hw
  rw [hset, EndpointIn.commit_of_free hfree, hread.loaded, hloaded, hl, List.nil_append]
  refine ⟨?_, rfl⟩
  rw [← hcommitted, ← hread.committed]
  exact (List.append_assoc _ _ _).symm

theorem serviceNotification_cases (hl : c.ep1.loaded = []) : Notifies c c.serviceNotification ∨
    Undisturbed c c.serviceNotification ∧
      (c.device.vars.usbComSerialState = c.device.vars.lastReportedSerialState ∨
        2 ≤ c.ep1.waiting.length) := by
  have hhost := c.undisturbed_host 1
  have hindex : (c.select 1).host.device.usbindex = 1 := by
    rw [host_device]
    rfl
  unfold serviceNotification
  dsimp only
  generalize (c.select 1).host = d at *
  have hselected : d.selected = d.ep1 := by
    unfold selected
    rw [hindex]
    rfl
  rw [hselected]
  split_ifs with hdue
  · obtain ⟨hne, hrdy⟩ := hdue
    have hfree : d.ep1.waiting.length < 2 := Nat.not_le.mp fun hle =>
      absurd ((inpktRdy_iff d.ep1).mpr hle) (by rw [hrdy]; exact Bool.false_ne_true)
    obtain ⟨hcommitted, hloaded⟩ := committed_notification (hhost.ep1.loaded.trans hl) hfree hindex
      d.device.vars.usbComSerialState
    left
    change Notifies c (Com.setVars ((notification _).foldl writeNotification d).host.setInpktRdy _)
    generalize ((notification _).foldl writeNotification d).host.setInpktRdy = sent at *
    exact .undisturbed hhost ⟨hne, hcommitted, hloaded, rfl, rfl⟩
  · refine Or.inr ⟨hhost, ?_⟩
    by_cases hsame : c.device.vars.usbComSerialState = c.device.vars.lastReportedSerialState
    · exact Or.inl hsame
    · rw [← hhost.usbComSerialState, ← hhost.lastReportedSerialState] at hsame
      have hrdy : d.ep1.inpktRdy = true := (Bool.not_eq_false _).mp fun hrdy => hdue ⟨hsame, hrdy⟩
      exact Or.inr (Nat.le_trans ((inpktRdy_iff d.ep1).mp hrdy) hhost.ep1.waiting)

end Com

/-! ### Runs -/

namespace Notifier

variable {serial : ℕ → UInt8} {s t : Notifier} {a : NotifierAction} {c : Com}

/-- The endpoints have just been initialized, and usbComSerialState has only bits that the two
functions may set. -/
structure Initialized (c : Com) : Prop where
  configured : c.device.usbDeviceState = .configured
  regular : Com.regular c.device.vars.usbComSerialState ≤ 3
  lastReportedSerialState : c.device.vars.lastReportedSerialState = 0xFF
  loaded : c.ep1.loaded = []

/-- The irregular signals in usbComSerialState are pending, and the other bits are the levels. -/
structure Invariant (c : Com) (s : Notifier) : Prop where
  loaded : s.com.ep1.loaded = []
  committed : s.com.ep1.committed = c.ep1.committed ++ s.notified.map Com.notification
  faithful : Faithful Irregular s.log
  pending : ∀ i, i ∈ Latch.pending Irregular s.log ↔
    Irregular i s.com.device.vars.usbComSerialState
  levels : Com.regular s.com.device.vars.usbComSerialState = s.levels
  le : s.levels ≤ 3
  reported : s.com.device.vars.lastReportedSerialState = 0xFF ∨
    ∃ v, s.notified.getLast? = some v ∧
      s.com.device.vars.lastReportedSerialState = Com.regular v

theorem invariant_start (h : Initialized c) : (start c).Invariant c where
  loaded := h.loaded
  committed := (List.append_nil _).symm
  faithful := Faithful.nil.raised _
  pending i := by
    have hnil : Latch.pending Irregular ([] : List (Entry UInt8)) = ∅ := rfl
    have hlog : (start c).log = [] ++ [.raised c.device.vars.usbComSerialState] := rfl
    rw [hlog, pending_raised, hnil, Set.empty_union]
    rfl
  levels := rfl
  le := h.regular
  reported := Or.inl h.lastReportedSerialState

/-- The host has read notifications, or the endpoints have been initialized again. -/
theorem Invariant.undisturbed {d : Com} (h : s.Invariant c) (he : s.com.ep1.ReadFrom d.ep1)
    (hs : d.device.vars.usbComSerialState = s.com.device.vars.usbComSerialState)
    (hr : d.device.vars.lastReportedSerialState = s.com.device.vars.lastReportedSerialState ∨
      d.device.vars.lastReportedSerialState = 0xFF) : Invariant c { s with com := d } where
  loaded := he.loaded.trans h.loaded
  committed := he.committed.trans h.committed
  faithful := h.faithful
  pending i := by
    dsimp only
    rw [hs]
    exact h.pending i
  levels := (congrArg Com.regular hs).trans h.levels
  le := h.le
  reported := by
    rcases hr with hr | hr
    · dsimp only
      rw [hr]
      exact h.reported
    · exact Or.inl hr

theorem Invariant.txControlSignals {signals : UInt8} (h : s.Invariant c) (hle : signals ≤ 3) :
    Invariant c { s with com := s.com.usbComTxControlSignals signals, levels := signals } where
  loaded := h.loaded
  committed := h.committed
  faithful := h.faithful
  pending i := by
    rw [h.pending i]
    change _ ↔ Irregular i (_ &&& Com.acmIrregularSignalMask ||| signals)
    rw [irregular_or, irregular_and_mask]
    exact (or_iff_left (not_irregular_of_eq (level_bits hle).1)).symm
  levels := by
    change Com.regular (_ &&& Com.acmIrregularSignalMask ||| signals) = signals
    rw [regular_or, regular_and_mask, (level_bits hle).2, UInt8.zero_or]
  le := hle
  reported := h.reported

theorem Invariant.txControlSignalEvents {signalEvents : UInt8} (h : s.Invariant c)
    (he : Com.regular signalEvents = 0) : Invariant c { s with
      com := s.com.usbComTxControlSignalEvents signalEvents
      log := s.log ++ [.raised signalEvents] } := by
  have hnotified : notified { s with
      com := s.com.usbComTxControlSignalEvents signalEvents
      log := s.log ++ [.raised signalEvents] } = s.notified := by
    unfold notified
    rw [List.filterMap_append]
    exact List.append_nil _
  refine ⟨h.loaded, ?_, h.faithful.raised _, fun i => ?_, ?_, h.le, ?_⟩
  · rw [hnotified]
    exact h.committed
  · change _ ↔ Irregular i (_ ||| signalEvents)
    rw [pending_raised, irregular_or, Set.mem_union, h.pending i]
    rfl
  · change Com.regular (_ ||| signalEvents) = s.levels
    rw [regular_or, he, UInt8.or_zero]
    exact h.levels
  · rw [hnotified]
    exact h.reported

theorem queued_of_append {d : Com} {states : List UInt8}
    (h : d.ep1.committed = c.ep1.committed ++ states.map Com.notification) :
    c.queued d = states := by
  have hbyte : (fun packet : List UInt8 => packet.getD 8 0) ∘ Com.notification = id := rfl
  rw [Com.queued, h, List.drop_left, List.map_map, hbyte, List.map_id]

theorem Invariant.notifies {d : Com} (h : s.Invariant c) (hn : Com.Notifies s.com d) :
    Invariant c { s with
      com := d
      log := s.log ++ [.reported s.com.device.vars.usbComSerialState] } := by
  have hnotified : notified { s with
      com := d
      log := s.log ++ [.reported s.com.device.vars.usbComSerialState] } =
      s.notified ++ [s.com.device.vars.usbComSerialState] := List.filterMap_append
  have hset : {i | Irregular i s.com.device.vars.usbComSerialState} =
      Latch.pending Irregular s.log := Set.ext fun i => (h.pending i).symm
  refine ⟨hn.loaded, ?_, h.faithful.reported hset, fun i => ?_, ?_, h.le, Or.inr ?_⟩
  · rw [hnotified, hn.committed, h.committed, List.map_append, List.append_assoc]
    rfl
  · rw [pending_reported, hn.usbComSerialState]
    exact iff_of_false (Set.notMem_empty i) not_irregular_regular
  · dsimp only
    rw [hn.usbComSerialState, regular_regular]
    exact h.levels
  · refine ⟨_, ?_, hn.lastReportedSerialState⟩
    rw [hnotified, List.getLast?_append]
    rfl

/-- While an event is pending, there is something to report. -/
theorem Invariant.pending_eq_empty (h : s.Invariant c) (hsame :
    s.com.device.vars.usbComSerialState = s.com.device.vars.lastReportedSerialState) :
    Latch.pending Irregular s.log = ∅ := by
  refine Set.eq_empty_iff_forall_notMem.mpr fun i hi => ?_
  rw [h.pending i, hsame] at hi
  rcases h.reported with hr | ⟨v, -, hr⟩
  · exact ne_of_regular_le (h.levels.symm ▸ h.le) (hsame.trans hr)
  · rw [hr] at hi
    exact not_irregular_regular hi

theorem Invariant.service {readings : Readings} {now : UInt32} {reads : List (List HostRead)}
    (h : s.Invariant c) (hs : s.Rule serial (.service readings now reads))
    (he : s.step serial (.service readings now reads) = some t) : t.Invariant c ∧
      (t.log = s.log ++ [.reported s.com.device.vars.usbComSerialState] ∨
      t.log = s.log ∧ (Latch.pending Irregular s.log = ∅ ∨ 2 ≤ s.com.ep1.waiting.length)) := by
  obtain ⟨d, hd, rfl⟩ := Option.map_eq_some_iff.mp he
  obtain ⟨-, -, hstate, hreported⟩ := (respects_tx serial).usbPoll readings s.com.device
  have hdata := ((s.com.schedule reads).poll serial readings).undisturbed_serviceData
  have hpolled : Invariant c { s with
      com := ((s.com.schedule reads).poll serial readings).serviceData } :=
    h.undisturbed hdata.ep1 (hdata.usbComSerialState.trans hstate)
      (hdata.lastReportedSerialState ▸ hreported)
  have hsame := hdata.usbComSerialState.trans hstate
  have hread := hdata.ep1
  rw [usbComService_eq hs hd]
  generalize ((s.com.schedule reads).poll serial readings).serviceData = e at *
  dsimp only
  rcases Com.serviceNotification_cases hpolled.loaded with hn | ⟨hidle, hwhy⟩
  · have hqueued : s.com.queued e.serviceNotification = [e.device.vars.usbComSerialState] :=
      queued_of_append (hn.committed.trans (congrArg (· ++ _) hread.committed))
    rw [hqueued, ← hsame]
    exact ⟨hpolled.notifies hn, Or.inl rfl⟩
  · have hqueued : s.com.queued e.serviceNotification = [] :=
      queued_of_append ((hidle.ep1.committed.trans hread.committed).trans
        (List.append_nil _).symm)
    rw [hqueued, List.map_nil, List.append_nil]
    refine ⟨hpolled.undisturbed hidle.ep1 hidle.usbComSerialState
      (Or.inl hidle.lastReportedSerialState), Or.inr ⟨rfl, ?_⟩⟩
    exact hwhy.imp hpolled.pending_eq_empty fun hle => Nat.le_trans hle hread.waiting

theorem Invariant.step (h : s.Invariant c) (hr : s.Rule serial a)
    (he : s.step serial a = some t) : t.Invariant c := by
  cases a with
  | txControlSignals signals =>
      obtain rfl := Option.some.inj he
      exact h.txControlSignals hr
  | txControlSignalEvents signalEvents =>
      obtain rfl := Option.some.inj he
      exact h.txControlSignalEvents hr
  | service readings now reads => exact (h.service hr he).1
  | hostRead read =>
      obtain rfl := Option.some.inj he
      have hdevice := Com.hostRead_device s.com read
      exact h.undisturbed (Com.hostRead_ep1 s.com read) (by rw [hdevice])
        (Or.inl (by rw [hdevice]))

/-- An event is in the first notification after it was raised, and it is not in another one unless
it has been raised again. While it has not been reported, the next service call that finds a free
buffer reports it. When the state is the one that was reported last, the last notification has the
levels of CD and DSR. -/
structure Reports (serial : ℕ → UInt8) (s : Notifier) : Prop where
  first : ∀ before signalEvents after v i, s.log = before ++ .raised signalEvents :: after →
    (after.filterMap Entry.reported?).head? = some v → Irregular i signalEvents → Irregular i v
  service : ∀ before signalEvents after i readings now reads t,
    s.log = before ++ .raised signalEvents :: after → after.filterMap Entry.reported? = [] →
    Irregular i signalEvents → s.Rule serial (.service readings now reads) →
    s.step serial (.service readings now reads) = some t → s.com.ep1.waiting.length < 2 →
    ∃ v, t.log = s.log ++ [.reported v] ∧ Irregular i v
  again : ∀ before v between w after i,
    s.log = before ++ .reported v :: (between ++ .reported w :: after) → Irregular i w →
    ∃ signalEvents, .raised signalEvents ∈ between ∧ Irregular i signalEvents
  levels : s.com.device.vars.usbComSerialState = s.com.device.vars.lastReportedSerialState →
    ∃ v, s.notified.getLast? = some v ∧ v &&& 3 = s.levels

theorem Invariant.reports (h : s.Invariant c) : s.Reports serial where
  first before signalEvents after v i hlog hv hi := h.faithful.occurs_of_first hlog hv hi
  service before signalEvents after i readings now reads t hlog hnone hi hr he hw := by
    have hpending : i ∈ Latch.pending Irregular s.log := by
      rw [hlog, pending_append]
      exact mem_foldl_next (p := next Irregular _ (.raised signalEvents)) (Or.inr hi) hnone
    obtain ⟨-, ht | ⟨-, hempty | hle⟩⟩ := h.service hr he
    · exact ⟨_, ht, (h.pending i).mp hpending⟩
    · rw [hempty] at hpending
      exact absurd hpending (Set.notMem_empty i)
    · exact absurd hw (Nat.not_lt.mpr hle)
  again before v between w after i hlog hi := h.faithful.raised_of_occurs hlog hi
  levels hsame := by
    rcases h.reported with hr | ⟨v, hv, hr⟩
    · exact absurd (hsame.trans hr) (ne_of_regular_le (h.levels.symm ▸ h.le))
    · have hlevels : Com.regular v = s.levels := by
        rw [← h.levels, hsame, hr, regular_regular]
      exact ⟨v, hv, (and_three (hlevels.symm ▸ h.le)).trans hlevels⟩

theorem run_reports (hc : Initialized c) (hr : Run (step serial) (Rule serial) (start c) s) :
    s.Reports serial ∧
      s.com.ep1.committed = c.ep1.committed ++ s.notified.map Com.notification := by
  have h : s.Invariant c := hr.invariant (invariant_start hc) fun _ _ _ h ha he => h.step ha he
  exact ⟨h.reports, h.committed⟩

theorem initialized_configured : Initialized configured := ⟨rfl, by decide, rfl, rfl⟩

/-- An overrun is raised while both buffers are full, and a second one after it was reported. -/
def overruns : List NotifierAction :=
  [.service (.packet 0x00 []) 0 [], .txControlSignals 3, .service (.packet 0x00 []) 0 [],
    .txControlSignalEvents 0x40, .service (.packet 0x00 []) 0 [], .hostRead .notification,
    .service (.packet 0x00 []) 0 [], .hostRead .notification, .txControlSignalEvents 0x40,
    .service (.packet 0x00 []) 0 []]

theorem run_reports_overruns : ∃ s, Run (step fun _ => 0) (Rule fun _ => 0) (start configured) s ∧
    s.notified = [0x00, 0x03, 0x43, 0x43] ∧ s.Reports fun _ => 0 := by
  have hrun : (exec (step fun _ => 0) (Rule fun _ => 0) (start configured) overruns).map
      notified = some [0x00, 0x03, 0x43, 0x43] := by
    decide +kernel
  obtain ⟨s, hr, hs⟩ := exists_run_of_exec hrun
  exact ⟨s, hr, hs, (run_reports initialized_configured hr).1⟩

end Notifier
end WixelSdk.UsbCom
