import WixelSdk.UsbComStream

/-!
# The transmit counters of the USB COM port across bus resets

A bus reset empties the FIFOs at once, and so does usbPoll() when it disables the USB module because
USB power is gone. Neither clears `inFifoBytesLoaded` and `sendEmptyPacketSoon`, and usbPoll() sees
a bus reset (RSTIF) only when it is called. Until then the device counts as configured, so that
bytes can be sent. The call of usbComService() that configures the device again sends a packet if
the counters ask for one, and that sets them right.
-/

namespace WixelSdk.UsbCom
open Usb UsbCdcAcm Transition

variable {c d : Com} {sent : List UInt8}

/-- The port with the bytes sent since the FIFO of the data endpoint was last emptied. `rstif` says
that usbPoll() has not seen the last bus reset, `earlier` are the packets of this time that were
committed when the device was last configured, and `sent` are the bytes sent since. -/
structure Connection where
  station : Station
  rstif : Bool
  earlier : List (List UInt8)
  sent : List UInt8

inductive BusAction
  | call (action : Action)
  | busReset

namespace Connection

variable (s : Connection)

def com : Com := s.station.com

def powerUp : Connection := ⟨.start ⟨UsbCdcAcm.init, .empty, .empty, []⟩, false, [], []⟩

def Configured : Prop := s.com.device.usbDeviceState = .configured

instance : Decidable s.Configured := inferInstanceAs (Decidable (_ = _))

def emptied (rstif : Bool) : Connection where
  station := { s.station with com := { s.com with ep4 := .empty, ep1 := .empty }, sent := [] }
  rstif := rstif
  earlier := []
  sent := []

def afterCall (bytes : List UInt8) (t : Station) : Connection :=
  { s with station := t, sent := s.sent ++ bytes }

/-- SET_CONFIGURATION has taken the device to the configured state. -/
def Enumerates (t : Station) : Prop :=
  t.com.device.usbDeviceState = .configured ∧ (¬ s.Configured ∨ s.rstif = true)

instance (t : Station) : Decidable (s.Enumerates t) := inferInstanceAs (Decidable (_ ∧ _))

def afterService (readings : Readings) (t : Station) : Connection :=
  if readings.usbPowerPresent = false then { s with station := t }.emptied false
  else if s.Enumerates t then ⟨t, false, t.com.ep4.committed, []⟩
  else { s with station := t, rstif := false }

def step (serial : ℕ → UInt8) (s : Connection) : BusAction → Option Connection
  | .busReset => some (s.emptied true)
  | .call (.service readings now reads) =>
      (s.station.step serial (.service readings now reads)).map (s.afterService readings)
  | .call a => (s.station.step serial a).map (s.afterCall a.bytes)

/-- usbPoll() reads RSTIF as it is. No more bytes are sent than the last value of
usbComTxAvailable() allows, and none if usbComService() has been called since. -/
def Rule (s : Connection) : BusAction → Prop
  | .call (.service readings _ _) => readings.usbPowerPresent = true → readings.rstif = s.rstif
  | .call a => a.bytes.length ≤ s.station.promised ∧ (a.bytes = [] ∨ s.station.serviced = false)
  | .busReset => True

/-- A bus reset that arrives while the device is configured finds nothing counted. -/
def Clean (s : Connection) : BusAction → Prop
  | .call _ => True
  | .busReset => s.Configured → s.com.device.vars.inFifoBytesLoaded = 0 ∧
      s.com.device.vars.sendEmptyPacketSoon = false

instance (a : BusAction) : Decidable (s.Rule a) := by
  rcases a with ⟨⟨⟩⟩ | _ <;> dsimp only [Rule] <;> infer_instance

instance (a : BusAction) : Decidable (s.Clean a) := by
  rcases a with ⟨⟩ | _ <;> dsimp only [Clean] <;> infer_instance

/-- The counters describe the FIFO, and the packets committed since the device was configured
contain the bytes sent since then. -/
structure Counted : Prop where
  loaded : s.com.device.vars.inFifoBytesLoaded.toNat = s.com.ep4.loaded.length
  full : s.com.device.vars.sendEmptyPacketSoon = true →
    ∃ packet, s.com.ep4.committed.getLast? = some packet ∧ packet.length = 64
  packets : ∃ packets, s.com.ep4.committed = s.earlier ++ packets ∧
    packets.flatten ++ s.com.ep4.loaded = s.sent

def Consistent : Prop := s.Configured → s.Counted

end Connection

/-! ### Counters of a device that is not configured -/

/-- As the device would be in the configured state. -/
def Com.asConfigured (c : Com) : Com :=
  { c with device := { c.device with usbDeviceState := .configured } }

theorem Com.asConfigured_of_configured (h : c.device.usbDeviceState = .configured) :
    c.asConfigured = c := by
  unfold asConfigured
  rw [← h]

/-- The FIFO has been emptied and nothing has been sent since. -/
structure Stale (c : Com) (sent : List UInt8) : Prop where
  ep4 : c.ep4 = .empty
  sent : sent = []
  lt : c.device.vars.inFifoBytesLoaded.toNat < 64

/-- The counters describe the FIFO or have been left over from before it was emptied. -/
def Tracked (c : Com) (sent : List UInt8) : Prop := Lossless c.asConfigured sent ∨ Stale c sent

theorem Lossless.tracked (h : Lossless c sent) : Tracked c sent := by
  refine Or.inl ?_
  rw [Com.asConfigured_of_configured h.configured]
  exact h

theorem eq_empty_of_readFrom {e f : EndpointIn} (h : e.ReadFrom f) (he : e = .empty) :
    f = .empty := by
  obtain ⟨hc, -, hl, ho⟩ := h
  subst he
  obtain ⟨hr, hw⟩ := List.append_eq_nil_iff.mp hc
  cases f
  simp_all [EndpointIn.empty]

/-- The host may have read packets and the device may have changed its state. -/
structure Unsent (c d : Com) : Prop where
  ep4 : c.ep4.ReadFrom d.ep4
  sendEmptyPacketSoon : d.device.vars.sendEmptyPacketSoon = c.device.vars.sendEmptyPacketSoon
  inFifoBytesLoaded : d.device.vars.inFifoBytesLoaded = c.device.vars.inFifoBytesLoaded

theorem Idle.unsent (h : Idle c d) : Unsent c d :=
  ⟨h.ep4, h.sendEmptyPacketSoon, h.inFifoBytesLoaded⟩

theorem unsent_poll (serial : ℕ → UInt8) (r : Readings) (c : Com) : Unsent c (c.poll serial r) := by
  obtain ⟨hsoon, hloaded⟩ := usbPoll_tx serial r c.device
  exact ⟨.refl, hsoon, hloaded⟩

theorem Unsent.trans {e : Com} (h : Unsent c d) (h' : Unsent d e) : Unsent c e where
  ep4 := h.ep4.trans h'.ep4
  sendEmptyPacketSoon := h'.sendEmptyPacketSoon.trans h.sendEmptyPacketSoon
  inFifoBytesLoaded := h'.inFifoBytesLoaded.trans h.inFifoBytesLoaded

theorem Unsent.asConfigured (h : Unsent c d) : Idle c.asConfigured d.asConfigured :=
  ⟨h.ep4, rfl, h.sendEmptyPacketSoon, h.inFifoBytesLoaded⟩

theorem Stale.unsent (h : Stale c sent) (hd : Unsent c d) : Stale d sent where
  ep4 := eq_empty_of_readFrom hd.ep4 h.ep4
  sent := h.sent
  lt := by
    rw [hd.inFifoBytesLoaded]
    exact h.lt

namespace Tracked

theorem unsent (h : Tracked c sent) (hd : Unsent c d) : Tracked d sent :=
  h.imp (fun hl => hl.idle hd.asConfigured) fun hs => hs.unsent hd

theorem lt (h : Tracked c sent) : c.device.vars.inFifoBytesLoaded.toNat < 64 := by
  rcases h with hl | hs
  · have hloaded := hl.loaded
    have hlt := hl.lt
    change c.device.vars.inFifoBytesLoaded.toNat = _ at hloaded
    omega
  · exact hs.lt

end Tracked

/-- An empty packet is committed. -/
theorem Stale.commits (h : Stale c sent) (hconf : c.device.usbDeviceState = .configured)
    (hd : Commits c d) : Lossless d sent := by
  have hcommitted : d.ep4.committed = [[]] := by
    rw [hd.committed, h.ep4]
    rfl
  have hwaiting : d.ep4.waiting.length ≤ 1 := by
    have hw := hd.waiting
    rw [h.ep4] at hw
    exact hw
  have hsoon : d.device.vars.sendEmptyPacketSoon = false := by
    rw [hd.sendEmptyPacketSoon, decide_eq_false_iff_not]
    intro hfull
    have hlt := h.lt
    rw [hfull] at hlt
    exact absurd hlt (by decide)
  refine ⟨⟨hd.usbDeviceState.trans hconf, ?_, ?_, ?_, ?_, ?_, ?_⟩, ?_⟩
  · rw [hcommitted, hd.loaded, h.sent]
    rfl
  · rw [hcommitted]
    intro packet hp
    rw [List.mem_singleton.mp hp]
    exact Nat.zero_le _
  · unfold fill
    rw [hd.loaded, List.length_nil]
    omega
  · rw [hd.inFifoBytesLoaded, hd.loaded]
    rfl
  · rw [hsoon, hcommitted]
    simp
  · rw [hd.overruns, h.ep4]
    rfl
  · rw [hd.loaded]
    decide

theorem powerPresent_of_configured {serial : ℕ → UInt8} {r : Readings}
    (hs : (c.poll serial r).device.usbDeviceState = .configured) : r.usbPowerPresent = true := by
  by_contra hp
  have hdetach : c.device.usbPoll (usbCdcAcm serial) r = (c.device.detach, []) := if_neg hp
  unfold Com.poll at hs
  rw [hdetach] at hs
  cases hs

/-- The call that configures the device sets the counters right. -/
theorem Stale.serviceData (h : Stale c sent) (hconf : c.device.usbDeviceState = .configured) :
    Lossless c.serviceData sent ∧ c.serviceData.ep4.loaded = [] := by
  have hi := idle_select_host c 4
  have hd := h.unsent hi.unsent
  have hdconf := hi.usbDeviceState.trans hconf
  rw [c.serviceData_eq]
  generalize (c.select 4).host = d at *
  split_ifs with hdue
  · have hw : d.ep4.waiting.length < 2 := by
      rw [hd.ep4]
      decide
    have hcommit := commits_sendPacketNow hw
    exact ⟨hd.commits hdconf hcommit, hcommit.loaded⟩
  · have hzero : d.device.vars.inFifoBytesLoaded = 0 := not_not.mp fun hn => hdue (Or.inl hn)
    have hp : d.ep4.pktPresent = false := by
      rw [hd.ep4]
      rfl
    have hsoon : d.device.vars.sendEmptyPacketSoon = false :=
      Bool.eq_false_iff.mpr fun hsoon => hdue (Or.inr ⟨hsoon, hp⟩)
    rw [hd.sent, hd.ep4]
    exact ⟨Fresh.lossless ⟨hdconf, hsoon, hzero, hd.ep4⟩, rfl⟩

theorem Tracked.usbComService {serial : ℕ → UInt8} {r : Readings} {now : UInt32}
    (h : Tracked c sent) (hs : (c.poll serial r).device.usbDeviceState = .configured)
    (hd : c.usbComService serial r now = some d) : Lossless d sent ∧ d.ep4.loaded = [] := by
  rcases h.unsent (unsent_poll serial r c) with hl | hstale
  · rw [Com.asConfigured_of_configured hs] at hl
    obtain ⟨hl, hserviced⟩ := hl.servicePolled hd
    exact ⟨hl, hserviced.loaded⟩
  · obtain ⟨hl, hnil⟩ := hstale.serviceData hs
    have hn := idle_serviceNotification (c.poll serial r).serviceData
    rw [usbComService_eq hs hd]
    exact ⟨hl.idle hn, hn.ep4.loaded.trans hnil⟩

/-! ### The packets that have been committed stay so -/

namespace Com

theorem committed_setInpktRdy (c : Com) : c.ep4.committed <+: c.setInpktRdy.ep4.committed := by
  unfold setInpktRdy
  split_ifs
  · exact c.ep4.committed_commit
  · exact List.prefix_rfl
  · exact List.prefix_rfl

theorem committed_sendPacketNow (c : Com) : c.ep4.committed <+: c.sendPacketNow.ep4.committed := by
  have hset := committed_setInpktRdy (c.select 4).host
  rw [(c.select 4).host_ep4.committed] at hset
  exact hset

theorem committed_sendIfFull (c : Com) : c.ep4.committed <+: c.sendIfFull.ep4.committed := by
  unfold sendIfFull
  split_ifs
  · exact committed_sendPacketNow c
  · exact List.prefix_rfl

theorem committed_usbComTxSendByte (c : Com) (byte : UInt8) :
    c.ep4.committed <+: (c.usbComTxSendByte byte).ep4.committed := by
  have hwrite : (c.writeData byte).ep4.committed = c.ep4.committed := by
    unfold writeData
    dsimp only
    rw [EndpointIn.committed_write, c.host_ep4.committed]
  have hsend := committed_sendIfFull ((c.writeData byte).setVars
    { (c.writeData byte).device.vars with
      inFifoBytesLoaded := (c.writeData byte).device.vars.inFifoBytesLoaded + 1 })
  rw [← hwrite]
  exact hsend

theorem committed_sendBytes (c : Com) (bytes : List UInt8) :
    c.ep4.committed <+: (bytes.foldl usbComTxSendByte c).ep4.committed := by
  induction bytes generalizing c with
  | nil => exact List.prefix_rfl
  | cons byte bytes ih => exact (committed_usbComTxSendByte c byte).trans (ih _)

end Com

theorem Idle.committed (h : Idle c d) : c.ep4.committed <+: d.ep4.committed := by
  rw [h.ep4.committed]

theorem Serviced.committed (h : Serviced c d) : c.ep4.committed <+: d.ep4.committed := by
  by_cases hnil : c.ep4.loaded = []
  · rcases h.idle hnil with hc | ⟨-, hc⟩
    · rw [hc]
    · exact ⟨[[]], hc.symm⟩
  · exact ⟨[c.ep4.loaded], (h.data hnil).symm⟩

theorem Station.committed_step {serial : ℕ → UInt8} {s t : Station} {a : Action}
    (h : s.Invariant) (hg : s.Granted serial a) (he : s.step serial a = some t) :
    s.com.ep4.committed <+: t.com.ep4.committed := by
  cases a with
  | hostRead read =>
      obtain rfl := Option.some.inj he
      exact (Com.idle_hostRead s.com read).committed
  | txAvailable reads =>
      obtain rfl := Option.some.inj he
      have hi := Com.idle_schedule s.com reads
      exact (hi.trans (Com.idle_usbComTxAvailable _)).committed
  | txSend buffer reads =>
      obtain ⟨d, hd, rfl⟩ := Option.map_eq_some_iff.mp he
      have hlt : (s.com.schedule reads).device.vars.inFifoBytesLoaded.toNat < 64 := by
        have hl := h.lossless.loaded
        have hlt := h.lossless.lt
        change s.com.device.vars.inFifoBytesLoaded.toNat < 64
        omega
      rw [Com.usbComTxSend_eq buffer hlt] at hd
      obtain rfl := Option.some.inj hd
      exact Com.committed_sendBytes (s.com.schedule reads) buffer
  | txSendByte byte reads =>
      obtain rfl := Option.some.inj he
      exact Com.committed_usbComTxSendByte (s.com.schedule reads) byte
  | service readings now reads =>
      obtain ⟨d, hd, rfl⟩ := Option.map_eq_some_iff.mp he
      have hi := Com.idle_schedule s.com reads
      exact ((h.lossless.idle hi).usbComService hg.1.2.2 hd).2.committed

/-! ### Runs -/

namespace Station

variable {serial : ℕ → UInt8} {s t : Station} {a : Action}

theorem sent_step (he : s.step serial a = some t) : t.sent = s.sent ++ a.bytes := by
  cases a with
  | hostRead read =>
      obtain rfl := Option.some.inj he
      exact (List.append_nil _).symm
  | txAvailable reads =>
      obtain rfl := Option.some.inj he
      exact (List.append_nil _).symm
  | txSend buffer reads =>
      obtain ⟨d, -, rfl⟩ := Option.map_eq_some_iff.mp he
      rfl
  | txSendByte byte reads =>
      obtain rfl := Option.some.inj he
      rfl
  | service readings now reads =>
      obtain ⟨d, -, rfl⟩ := Option.map_eq_some_iff.mp he
      exact (List.append_nil _).symm

/-- A call that sends nothing, and is not usbComService(), while the device is not configured. -/
theorem silent_step (ha : ∀ readings now reads, a ≠ .service readings now reads)
    (hb : a.bytes = []) (hn : s.com.device.usbDeviceState ≠ .configured)
    (hs : s.serviced = true ∨ s.promised = 0) (he : s.step serial a = some t) :
    Idle s.com t.com ∧ (t.serviced = true ∨ t.promised = 0) := by
  cases a with
  | hostRead read =>
      obtain rfl := Option.some.inj he
      exact ⟨Com.idle_hostRead s.com read, hs⟩
  | txAvailable reads =>
      obtain rfl := Option.some.inj he
      have hi := Com.idle_schedule s.com reads
      refine ⟨hi.trans (Com.idle_usbComTxAvailable _), Or.inr ?_⟩
      have hnone : (s.com.schedule reads).usbComTxAvailable = (0, s.com.schedule reads) := if_pos hn
      dsimp only
      rw [hnone]
      rfl
  | txSend buffer reads =>
      obtain rfl : buffer = [] := hb
      obtain rfl := Option.some.inj he
      exact ⟨Com.idle_schedule s.com reads, hs⟩
  | txSendByte byte reads => cases hb
  | service readings now reads => exact absurd rfl (ha readings now reads)

end Station

namespace Connection

variable {serial : ℕ → UInt8} {s t : Connection} {a : Action}

/-- Without a configured device, nothing may be sent. -/
structure Invariant (s : Connection) : Prop where
  configured : s.Configured → s.station.Invariant
  tracked : Tracked s.com s.station.sent
  silent : ¬ s.Configured → s.station.serviced = true ∨ s.station.promised = 0
  earlier : s.earlier <+: s.com.ep4.committed
  sent : s.station.sent = s.earlier.flatten ++ s.sent

theorem invariant_powerUp : powerUp.Invariant where
  configured h := by cases h
  tracked := Or.inr ⟨rfl, rfl, by decide⟩
  silent _ := Or.inr rfl
  earlier := List.nil_prefix
  sent := rfl

theorem Invariant.counted (h : s.Invariant) : s.Consistent := by
  intro hconf
  have hl := (h.configured hconf).lossless
  obtain ⟨packets, hp⟩ := h.earlier
  refine ⟨hl.loaded, hl.full.mp, packets, hp.symm, ?_⟩
  have hbytes : s.com.ep4.committed.flatten ++ s.com.ep4.loaded = s.station.sent := hl.bytes
  rw [← hp, h.sent, List.flatten_append, List.append_assoc] at hbytes
  exact List.append_cancel_left hbytes

/-! ### Bus resets -/

theorem Invariant.emptied (h : s.Invariant) (rstif : Bool)
    (hc : s.Configured → s.com.device.vars.inFifoBytesLoaded = 0 ∧
      s.com.device.vars.sendEmptyPacketSoon = false) : (s.emptied rstif).Invariant where
  configured hconf := by
    have hs := h.configured hconf
    obtain ⟨hzero, hsoon⟩ := hc hconf
    refine ⟨Fresh.lossless ⟨hconf, hsoon, hzero, rfl⟩, fun hserviced => ?_⟩
    have hroom := hs.room hserviced
    change s.station.promised + 0 ≤ 128
    omega
  tracked := Or.inr ⟨rfl, rfl, h.tracked.lt⟩
  silent := h.silent
  earlier := List.prefix_rfl
  sent := rfl

/-! ### Calls -/

theorem step_call (ha : ∀ readings now reads, a ≠ .service readings now reads) :
    s.step serial (.call a) = (s.station.step serial a).map (s.afterCall a.bytes) := by
  cases a with
  | service readings now reads => exact absurd rfl (ha readings now reads)
  | _ => rfl

theorem Invariant.afterCall (h : s.Invariant) {u : Station}
    (ha : ∀ readings now reads, a ≠ .service readings now reads)
    (hr : a.bytes.length ≤ s.station.promised ∧ (a.bytes = [] ∨ s.station.serviced = false))
    (hu : s.station.step serial a = some u) : (s.afterCall a.bytes u).Invariant := by
  have hsent : u.sent = s.earlier.flatten ++ (s.sent ++ a.bytes) := by
    rw [Station.sent_step hu, h.sent, List.append_assoc]
  by_cases hconf : s.Configured
  · have hs := h.configured hconf
    have hg : s.station.Granted serial a := by
      refine ⟨?_, hr⟩
      cases a with
      | service readings now reads => exact absurd rfl (ha readings now reads)
      | _ => exact trivial
    have hinv := hs.step hg hu
    refine ⟨fun _ => hinv, hinv.lossless.tracked, ?_, ?_, hsent⟩
    · exact fun hn => absurd hinv.lossless.configured hn
    · exact h.earlier.trans (Station.committed_step hs hg hu)
  · have hsilent := h.silent hconf
    have hb : a.bytes = [] := by
      rcases hr.2 with hb | hfalse
      · exact hb
      · rcases hsilent with htrue | hzero
        · rw [htrue] at hfalse
          cases hfalse
        · rw [hzero] at hr
          exact List.eq_nil_of_length_eq_zero (Nat.le_zero.mp hr.1)
    obtain ⟨hi, hstill⟩ := Station.silent_step ha hb hconf hsilent hu
    have hn : u.com.device.usbDeviceState ≠ .configured := by
      rw [hi.usbDeviceState]
      exact hconf
    refine ⟨fun hc => absurd hc hn, ?_, fun _ => hstill, h.earlier.trans hi.committed, hsent⟩
    change Tracked u.com u.sent
    rw [Station.sent_step hu, hb, List.append_nil]
    exact h.tracked.unsent hi.unsent

theorem Invariant.of_unconfigured (h : s.Invariant) {u : Station} (rstif : Bool)
    (hi : Unsent s.com u.com) (hn : u.com.device.usbDeviceState ≠ .configured)
    (hserviced : u.serviced = true) (hsent : u.sent = s.station.sent) :
    Invariant { s with station := u, rstif := rstif } where
  configured hc := absurd hc hn
  tracked := by
    change Tracked u.com u.sent
    rw [hsent]
    exact h.tracked.unsent hi
  silent _ := Or.inl hserviced
  earlier := by
    change s.earlier <+: u.com.ep4.committed
    rw [hi.ep4.committed]
    exact h.earlier
  sent := hsent.trans h.sent

theorem Invariant.of_lossless (h : s.Invariant) {u : Station} (rstif : Bool)
    (hl : Lossless u.com u.sent) (hserviced : u.serviced = true)
    (hc : s.com.ep4.committed <+: u.com.ep4.committed) (hsent : u.sent = s.station.sent) :
    Invariant { s with station := u, rstif := rstif } where
  configured _ := ⟨hl, fun hf => absurd (hserviced.symm.trans hf) (by decide)⟩
  tracked := hl.tracked
  silent _ := Or.inl hserviced
  earlier := h.earlier.trans hc
  sent := hsent.trans h.sent

/-- The packets so far are the bytes so far. -/
theorem invariant_enumerated {u : Station} (hl : Lossless u.com u.sent)
    (hserviced : u.serviced = true) (hnil : u.com.ep4.loaded = []) :
    Invariant ⟨u, false, u.com.ep4.committed, []⟩ where
  configured _ := ⟨hl, fun hf => absurd (hserviced.symm.trans hf) (by decide)⟩
  tracked := hl.tracked
  silent _ := Or.inl hserviced
  earlier := List.prefix_rfl
  sent := by
    have hbytes := hl.bytes
    rw [hnil] at hbytes
    exact hbytes.symm

theorem Invariant.afterService (h : s.Invariant) {readings : Readings} {now : UInt32}
    {reads : List (List HostRead)} {u : Station}
    (hu : s.station.step serial (.service readings now reads) = some u) :
    (s.afterService readings u).Invariant := by
  obtain ⟨d, hd, rfl⟩ := Option.map_eq_some_iff.mp hu
  have hi : Idle s.com (s.com.schedule reads) := Com.idle_schedule s.com reads
  have hpoll := hi.unsent.trans (unsent_poll serial readings _)
  by_cases hs : ((s.com.schedule reads).poll serial readings).device.usbDeviceState = .configured
  · have hpower : readings.usbPowerPresent = true := powerPresent_of_configured hs
    obtain ⟨hl, hnil⟩ := (h.tracked.unsent hi.unsent).usbComService hs hd
    unfold Connection.afterService
    rw [if_neg (by rw [hpower]; decide)]
    by_cases he : s.Enumerates { s.station with com := d, serviced := true }
    · rw [if_pos he]
      exact invariant_enumerated hl rfl hnil
    · rw [if_neg he]
      have hconf : s.Configured := by
        by_contra hn
        exact he ⟨hl.configured, Or.inl hn⟩
      have hserviced := (((h.configured hconf).lossless.idle hi).usbComService hs hd).2.of_idle hi
      exact h.of_lossless false hl rfl hserviced.committed rfl
  · obtain rfl := usbComService_eq_poll hs hd
    have hinv (rstif : Bool) := h.of_unconfigured (u := { s.station with
      com := (s.com.schedule reads).poll serial readings, serviced := true }) rstif hpoll hs rfl rfl
    unfold Connection.afterService
    split_ifs with hpower he
    · exact (hinv s.rstif).emptied false fun hc => absurd hc hs
    · exact absurd he.1 hs
    · exact hinv false

theorem Invariant.step (h : s.Invariant) {a : BusAction} (hr : s.Rule a) (hc : s.Clean a)
    (he : s.step serial a = some t) : t.Invariant := by
  cases a with
  | busReset =>
      obtain rfl := Option.some.inj he
      exact h.emptied true hc
  | call a =>
      cases a with
      | service readings now reads =>
          obtain ⟨u, hu, rfl⟩ := Option.map_eq_some_iff.mp he
          exact h.afterService hu
      | _ =>
          rw [step_call fun _ _ _ hc => (by cases hc)] at he
          obtain ⟨u, hu, rfl⟩ := Option.map_eq_some_iff.mp he
          exact h.afterCall (fun _ _ _ hc => (by cases hc)) hr hu

/-- A bus reset keeps the counters in step with the FIFO if and only if it finds nothing counted. -/
theorem consistent_busReset_iff (s : Connection) :
    (s.emptied true).Consistent ↔ s.Clean .busReset := by
  constructor
  · intro h hconf
    have hc := h hconf
    have hloaded : s.com.device.vars.inFifoBytesLoaded.toNat = 0 := hc.loaded
    refine ⟨UInt8.toNat_inj.mp hloaded, Bool.eq_false_iff.mpr fun hsoon => ?_⟩
    obtain ⟨packet, hlast, -⟩ := hc.full hsoon
    cases hlast
  · intro h hconf
    obtain ⟨hzero, hsoon⟩ := h hconf
    refine ⟨?_, fun hfull => ?_, [], rfl, rfl⟩
    · exact congrArg UInt8.toNat hzero
    · exact absurd (hsoon.symm.trans hfull) (by decide)

/-- If each bus reset finds nothing counted while the device is configured, the counters describe
the FIFO whenever the device is configured. -/
theorem run_consistent (serial : ℕ → UInt8) (s : Connection)
    (hr : Run (step serial) (fun s a => s.Rule a ∧ s.Clean a) powerUp s) :
    s.Consistent ∧
      ∀ t, s.step serial .busReset = some t → (t.Consistent ↔ s.Clean .busReset) := by
  have h : s.Invariant :=
    hr.invariant invariant_powerUp fun _ _ _ h hc he => h.step hc.1 hc.2 he
  refine ⟨h.counted, fun t he => ?_⟩
  obtain rfl := Option.some.inj he
  exact consistent_busReset_iff s

/-- A call of usbComService() with a packet on endpoint 0, or none. -/
def service (bytes : List UInt8) : BusAction :=
  .call (.service (.packet (if bytes = [] then 0x00 else 0x01) bytes) 0 [])

/-- A bus reset, SET_ADDRESS and SET_CONFIGURATION. -/
def enumeration : List BusAction :=
  [.busReset, .call (.service { Readings.packet 0x00 [] with usbcif := 4 } 0 []),
    service [0, 5, 1, 0, 0, 0, 0, 0], service [0, 9, 1, 0, 0, 0, 0, 0]]

/-- The device is enumerated again after 64 bytes have been sent and read by the host. -/
theorem run_consistent_full_packet :
    ∃ s, Run (step fun _ => 0) (fun s a => s.Rule a ∧ s.Clean a) powerUp s ∧
      s.Counted ∧ s.sent = [1, 2, 3] ∧ s.com.ep4.loaded = [1, 2, 3] := by
  have hrun : (exec (step fun _ => 0) (fun s a => s.Rule a ∧ s.Clean a) powerUp
      (service [] :: enumeration ++ [.call (.txAvailable []),
        .call (.txSend (List.replicate 64 7) []), .call (.hostRead .data), service []] ++
        enumeration ++ [.call (.txAvailable []), .call (.txSend [1, 2, 3] [])])).map
      (fun s => (s.com.device.usbDeviceState, s.sent, s.com.ep4.loaded)) =
      some (.configured, [1, 2, 3], [1, 2, 3]) := by
    decide +kernel
  obtain ⟨s, hr, hs⟩ := exists_run_of_exec hrun
  obtain ⟨hconf, hrest⟩ := Prod.mk.inj hs
  obtain ⟨hsent, hloaded⟩ := Prod.mk.inj hrest
  obtain ⟨hc, -⟩ := run_consistent (fun _ => 0) s hr
  exact ⟨s, hr, hc hconf, hsent, hloaded⟩

/-- A bus reset finds 10 bytes in the FIFO, and 54 are sent before usbPoll() sees it: they go out as
a packet that counts as full. -/
theorem not_run_consistent_of_partly_filled :
    ¬ ∀ s, Run (step fun _ => 0) Rule powerUp s → s.rstif = false → s.Consistent := by
  intro h
  have hrun : (exec (step fun _ => 0) Rule powerUp
      (service [] :: enumeration ++ [.call (.txAvailable []),
        .call (.txSend (List.replicate 10 7) []), .busReset, .call (.txAvailable []),
        .call (.txSend (List.replicate 54 7) [])] ++ enumeration.tail)).map
      (fun s => (s.com.device.usbDeviceState, s.rstif, s.com.device.vars.sendEmptyPacketSoon,
        s.com.ep4.committed.map List.length)) = some (.configured, false, true, [54]) := by
    decide +kernel
  obtain ⟨s, hr, hs⟩ := exists_run_of_exec hrun
  obtain ⟨hconf, hrest⟩ := Prod.mk.inj hs
  obtain ⟨hrstif, hrest⟩ := Prod.mk.inj hrest
  obtain ⟨hsoon, hlengths⟩ := Prod.mk.inj hrest
  obtain ⟨packet, hlast, hfull⟩ := (h s hr hrstif hconf).full hsoon
  have hlen := congrArg List.getLast? hlengths
  rw [List.getLast?_map, hlast, Option.map_some, hfull] at hlen
  cases hlen

end Connection
end WixelSdk.UsbCom
