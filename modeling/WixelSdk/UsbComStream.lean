import WixelSdk.UsbComTx

/-!
# The bytes of the USB COM port as a stream

A service call commits the bytes that are loaded, or an empty packet when the last one was full and
the FIFO is empty. With the sends that usbComTxAvailable() allows, the packets are the bytes sent.
-/

namespace WixelSdk.UsbCom
open Usb UsbCdcAcm Transition

variable {c d : Com} {sent : List UInt8}

/-! ### usbComService -/

/-- What a service call commits. -/
structure Serviced (c d : Com) : Prop where
  loaded : d.ep4.loaded = []
  data : c.ep4.loaded ≠ [] → d.ep4.committed = c.ep4.committed ++ [c.ep4.loaded]
  idle : c.ep4.loaded = [] → d.ep4.committed = c.ep4.committed ∨
    c.device.vars.sendEmptyPacketSoon = true ∧ d.ep4.committed = c.ep4.committed ++ [[]]
  empty : c.ep4.loaded = [] → c.ep4.waiting = [] → c.device.vars.sendEmptyPacketSoon = true →
    d.ep4.committed = c.ep4.committed ++ [[]]

theorem waiting_eq_nil (h : Idle c d) (hw : c.ep4.waiting = []) : d.ep4.waiting = [] := by
  have hle := h.ep4.waiting
  rw [hw] at hle
  exact List.eq_nil_of_length_eq_zero (Nat.le_zero.mp hle)

theorem Serviced.of_idle {e : Com} (hi : Idle c d) (h : Serviced d e) : Serviced c e := by
  have hl := hi.ep4.loaded
  have hc := hi.ep4.committed
  have hs := hi.sendEmptyPacketSoon
  refine ⟨h.loaded, fun hne => ?_, fun hnil => ?_, fun hnil hw hsoon => ?_⟩
  · rw [h.data (by rw [hl]; exact hne), hc, hl]
  · rw [← hc, ← hs]
    exact h.idle (hl.trans hnil)
  · rw [h.empty (hl.trans hnil) (waiting_eq_nil hi hw) (hs.trans hsoon), hc]

theorem Serviced.idle_after {e : Com} (h : Serviced c d) (hi : Idle d e) : Serviced c e := by
  refine ⟨hi.ep4.loaded.trans h.loaded, ?_, ?_, ?_⟩
  · rw [hi.ep4.committed]
    exact h.data
  · rw [hi.ep4.committed]
    exact h.idle
  · rw [hi.ep4.committed]
    exact h.empty

theorem Commits.serviced (h : Commits c d)
    (hsoon : c.ep4.loaded = [] → c.device.vars.sendEmptyPacketSoon = true) : Serviced c d where
  loaded := h.loaded
  data _ := h.committed
  idle hnil := Or.inr ⟨hsoon hnil, by rw [h.committed, hnil]⟩
  empty hnil _ _ := by rw [h.committed, hnil]

theorem Lossless.inFifoBytesLoaded_eq_zero (h : Lossless c sent) :
    c.device.vars.inFifoBytesLoaded = 0 ↔ c.ep4.loaded = [] := by
  have hl := h.loaded
  rw [← UInt8.toNat_inj, hl]
  exact List.length_eq_zero_iff

/-- When the data endpoint is due for service, there is a buffer for the packet. -/
theorem Lossless.sendDue (h : Lossless c sent) (hdue : c.device.vars.inFifoBytesLoaded ≠ 0 ∨
    c.device.vars.sendEmptyPacketSoon = true ∧ c.ep4.pktPresent = false) :
    c.ep4.waiting.length < 2 := by
  have hf := h.fits
  unfold fill at hf
  rcases hdue with hn | ⟨-, hp⟩
  · have hne : c.ep4.loaded ≠ [] := fun hnil => hn (h.inFifoBytesLoaded_eq_zero.mpr hnil)
    have hpos := List.length_pos_iff.mpr hne
    omega
  · have hnone : ¬ 0 < c.ep4.waiting.length := fun hpos => by
      rw [(pktPresent_iff _).mpr hpos] at hp
      cases hp
    omega

theorem Lossless.serviceData (h : Lossless c sent) :
    Lossless c.serviceData sent ∧ Serviced c c.serviceData := by
  have hi := idle_select_host c 4
  have hd : Lossless (c.select 4).host sent := h.idle hi
  rw [c.serviceData_eq]
  generalize (c.select 4).host = d at *
  split_ifs with hdue
  · have hw := hd.sendDue hdue
    have hcommit := commits_sendPacketNow hw
    refine ⟨hcommit.lossless hd.toBuffered (Nat.le_of_lt hd.lt) hw,
      .of_idle hi (hcommit.serviced fun hnil => ?_)⟩
    exact (hdue.resolve_left (not_not.mpr (hd.inFifoBytesLoaded_eq_zero.mpr hnil))).1
  · have hzero : d.device.vars.inFifoBytesLoaded = 0 := not_not.mp fun hn => hdue (Or.inl hn)
    have hnil := hd.inFifoBytesLoaded_eq_zero.mp hzero
    refine ⟨hd, .of_idle hi ⟨hnil, fun hne => absurd hnil hne, fun _ => Or.inl rfl, ?_⟩⟩
    intro _ hw hsoon
    refine absurd (Or.inr ⟨hsoon, ?_⟩) hdue
    unfold EndpointIn.pktPresent
    rw [hw]
    rfl

/-- The notification goes to another endpoint. -/
theorem idle_writeNotification (c : Com) (byte : UInt8) : Idle c (c.writeNotification byte) :=
  c.idle_host.trans (.of_eq rfl .refl)

theorem writeNotification_device (c : Com) (byte : UInt8) :
    (c.writeNotification byte).device = c.device := c.host_device

theorem notification_spec (bytes : List UInt8) (c : Com) :
    Idle c (bytes.foldl Com.writeNotification c) ∧
      (bytes.foldl Com.writeNotification c).device = c.device := by
  induction bytes generalizing c with
  | nil => exact ⟨.refl c, rfl⟩
  | cons byte bytes ih =>
      obtain ⟨hi, hd⟩ := ih (c.writeNotification byte)
      exact ⟨(idle_writeNotification c byte).trans hi, hd.trans (writeNotification_device c byte)⟩

theorem idle_serviceNotification (c : Com) : Idle c c.serviceNotification := by
  have hi := idle_select_host c 1
  have hindex : (c.select 1).host.device.usbindex = 1 := by
    rw [Com.host_device]
    rfl
  unfold Com.serviceNotification
  dsimp only
  generalize (c.select 1).host = d at *
  split_ifs
  · have hsent := (notification_spec [0xA1, 0x20, 0, 0, 0, 0, 2, 0,
      d.device.vars.usbComSerialState, 0] d)
    generalize [0xA1, 0x20, 0, 0, 0, 0, 2, 0, d.device.vars.usbComSerialState, 0].foldl
      Com.writeNotification d = e at hsent ⊢
    obtain ⟨he, hdev⟩ := hsent
    have hn : e.host.device.usbindex = 1 := by
      rw [Com.host_device, hdev]
      exact hindex
    have hset : e.host.setInpktRdy = { e.host with ep1 := e.host.ep1.commit } := by
      unfold Com.setInpktRdy
      rw [hn, if_neg (by decide), if_pos rfl]
    rw [hset]
    exact (hi.trans (he.trans e.idle_host)).trans ⟨.refl, rfl, rfl, rfl⟩
  · exact hi

theorem idle_poll (serial : ℕ → UInt8) (r : Readings)
    (hs : (c.poll serial r).device.usbDeviceState = c.device.usbDeviceState) :
    Idle c (c.poll serial r) := by
  obtain ⟨hsoon, hloaded⟩ := usbPoll_tx serial r c.device
  exact ⟨.refl, hs, hsoon, hloaded⟩

theorem usbComService_eq {serial : ℕ → UInt8} {r : Readings} {now : UInt32}
    (hs : (c.poll serial r).device.usbDeviceState = .configured)
    (hd : c.usbComService serial r now = some d) :
    d = (c.poll serial r).serviceData.serviceNotification := by
  unfold Com.usbComService at hd
  dsimp only at hd
  rw [if_neg (not_not.mpr hs)] at hd
  split_ifs at hd
  exact (Option.some.inj hd).symm

theorem Lossless.servicePolled {serial : ℕ → UInt8} {r : Readings} {now : UInt32}
    (h : Lossless (c.poll serial r) sent) (hd : c.usbComService serial r now = some d) :
    Lossless d sent ∧ Serviced (c.poll serial r) d := by
  obtain ⟨hdata, hserviced⟩ := h.serviceData
  have hn := idle_serviceNotification (c.poll serial r).serviceData
  rw [usbComService_eq h.configured hd]
  exact ⟨hdata.idle hn, hserviced.idle_after hn⟩

theorem Lossless.usbComService {serial : ℕ → UInt8} {r : Readings} {now : UInt32}
    (h : Lossless c sent) (hs : (c.poll serial r).device.usbDeviceState = .configured)
    (hd : c.usbComService serial r now = some d) : Lossless d sent ∧ Serviced c d := by
  have hi : Idle c (c.poll serial r) := idle_poll serial r (hs.trans h.configured.symm)
  obtain ⟨hl, hserviced⟩ := (h.idle hi).servicePolled hd
  exact ⟨hl, hserviced.of_idle hi⟩

theorem usbComService_eq_poll {serial : ℕ → UInt8} {r : Readings} {now : UInt32}
    (hn : (c.poll serial r).device.usbDeviceState ≠ .configured)
    (hd : c.usbComService serial r now = some d) : d = c.poll serial r := by
  unfold Com.usbComService at hd
  dsimp only at hd
  rw [if_pos hn] at hd
  split_ifs at hd
  exact (Option.some.inj hd).symm

theorem setInpktRdy_device (c : Com) : c.setInpktRdy.device = c.device := by
  unfold Com.setInpktRdy
  split_ifs <;> rfl

theorem serviceData_usbDeviceState (c : Com) :
    c.serviceData.device.usbDeviceState = c.device.usbDeviceState := by
  have hhost : (c.select 4).host.device = (c.select 4).device := Com.host_device _
  have hsend (d : Com) : d.sendPacketNow.device.usbDeviceState = d.device.usbDeviceState := by
    unfold Com.sendPacketNow
    dsimp only [Com.setVars]
    rw [setInpktRdy_device, Com.host_device]
    rfl
  unfold Com.serviceData
  dsimp only
  split_ifs
  · rw [hsend, hhost]
    rfl
  · rw [hhost]
    rfl

theorem usbComService_configured {serial : ℕ → UInt8} {r : Readings} {now : UInt32}
    (hs : (c.poll serial r).device.usbDeviceState = .configured)
    (hd : c.usbComService serial r now = some d) : d.device.usbDeviceState = .configured := by
  rw [usbComService_eq hs hd, (idle_serviceNotification _).usbDeviceState,
    serviceData_usbDeviceState]
  exact hs

/-! ### Runs -/

/-- Configured, with nothing sent yet. -/
structure Fresh (c : Com) : Prop where
  configured : c.device.usbDeviceState = .configured
  sendEmptyPacketSoon : c.device.vars.sendEmptyPacketSoon = false
  inFifoBytesLoaded : c.device.vars.inFifoBytesLoaded = 0
  ep4 : c.ep4 = .empty

theorem Fresh.lossless (h : Fresh c) : Lossless c [] := by
  refine ⟨⟨h.configured, ?_, ?_, ?_, ?_, ?_, ?_⟩, ?_⟩ <;> rw [h.ep4]
  · rfl
  · exact nofun
  · decide
  · rw [h.inFifoBytesLoaded]
    rfl
  · rw [h.sendEmptyPacketSoon]
    simp [EndpointIn.committed, EndpointIn.empty]
  · rfl
  · decide

namespace Station

variable {serial : ℕ → UInt8} {s t : Station} {a : Action}

/-- No more bytes are sent than the last value of usbComTxAvailable() allows, and none if
usbComService() has been called since. -/
def Granted (serial : ℕ → UInt8) (s : Station) (a : Action) : Prop :=
  s.StaysConfigured serial a ∧ a.bytes.length ≤ s.promised ∧ (a.bytes = [] ∨ s.serviced = false)

instance (s : Station) (a : Action) : Decidable (s.Granted serial a) :=
  inferInstanceAs (Decidable (_ ∧ _ ∧ _))

def Quiet (serial : ℕ → UInt8) (s : Station) (a : Action) : Prop :=
  s.StaysConfigured serial a ∧ a.bytes = []

theorem Quiet.granted (h : s.Quiet serial a) : s.Granted serial a :=
  ⟨h.1, by rw [h.2]; exact Nat.zero_le _, Or.inl h.2⟩

structure Invariant (s : Station) : Prop where
  lossless : Lossless s.com s.sent
  room : s.serviced = false → s.promised + fill s.com.ep4 ≤ 128

theorem invariant_start (h : Fresh c) : (start c).Invariant where
  lossless := h.lossless
  room _ := by
    dsimp only [start]
    rw [h.ep4]
    decide

theorem Invariant.idle (h : s.Invariant) (hi : Idle s.com d) : Invariant { s with com := d } where
  lossless := h.lossless.idle hi
  room hs := Nat.le_trans (Nat.add_le_add_left (fill_readFrom hi.ep4) _) (h.room hs)

/-- The sends that are granted fit into the FIFO. -/
theorem Invariant.fits (h : s.Invariant) (hg : s.Granted serial a) :
    a.bytes.length + fill s.com.ep4 ≤ 128 := by
  obtain ⟨-, hle, hnil | hs⟩ := hg
  · rw [hnil]
    have hf := h.lossless.fits
    rw [List.length_nil]
    omega
  · have hroom := h.room hs
    omega

theorem Invariant.afterSend {bytes : List UInt8} (h : s.Invariant)
    (hg : bytes.length ≤ s.promised) (hd : Lossless d (s.sent ++ bytes))
    (hf : fill d.ep4 ≤ bytes.length + fill s.com.ep4) : (s.afterSend d bytes).Invariant where
  lossless := hd
  room hs := by
    have hroom := h.room hs
    dsimp only [Station.afterSend]
    omega

theorem Invariant.txSend (h : s.Invariant) {buffer : List UInt8} (reads : List (List HostRead))
    (hg : s.Granted serial (.txSend buffer reads)) :
    ∃ d, (s.com.schedule reads).usbComTxSend buffer = some d ∧
      (s.afterSend d buffer).Invariant := by
  have hi := Com.idle_schedule s.com reads
  have hfits : buffer.length + fill (s.com.schedule reads).ep4 ≤ 128 := h.fits hg
  obtain ⟨d, hd, hl, hf⟩ := (h.lossless.idle hi).usbComTxSend hfits
  exact ⟨d, hd, h.afterSend hg.2.1 hl hf⟩

theorem Invariant.step (h : s.Invariant) (hg : s.Granted serial a)
    (he : s.step serial a = some t) : t.Invariant := by
  cases a with
  | hostRead read =>
      obtain rfl := Option.some.inj he
      exact h.idle (Com.idle_hostRead _ _)
  | txAvailable reads =>
      obtain rfl := Option.some.inj he
      obtain ⟨hl, hroom⟩ := (h.lossless.idle (Com.idle_schedule s.com reads)).usbComTxAvailable
      exact ⟨hl, fun _ => Nat.le_of_eq hroom⟩
  | txSend buffer reads =>
      obtain ⟨d, hd, hinv⟩ := h.txSend reads hg
      simp only [Station.step, hd, Option.map_some] at he
      obtain rfl := Option.some.inj he
      exact hinv
  | txSendByte byte reads =>
      obtain rfl := Option.some.inj he
      have hfits : 1 + fill (s.com.schedule reads).ep4 ≤ 128 := h.fits hg
      obtain ⟨hl, hf⟩ := (h.lossless.idle (Com.idle_schedule s.com reads)).usbComTxSendByte
        (by omega) byte
      exact h.afterSend hg.2.1 hl hf
  | service readings now reads =>
      obtain ⟨d, hd, rfl⟩ := Option.map_eq_some_iff.mp he
      exact ⟨((h.lossless.idle (Com.idle_schedule s.com reads)).usbComService hg.1.2.2 hd).1, nofun⟩

theorem Invariant.run (h : s.Invariant) (hr : Run (Station.step serial) (Granted serial) s t) :
    t.Invariant :=
  hr.invariant h fun _ _ _ h hg he => h.step hg he

/-! ### Empty packets -/

/-- A step that sends nothing commits nothing, unless it is a service call. -/
theorem quiet_step (h : s.Invariant) (hq : s.Quiet serial a) (he : s.step serial a = some t) :
    Idle s.com t.com ∨ Serviced s.com t.com := by
  cases a with
  | hostRead read =>
      obtain rfl := Option.some.inj he
      exact Or.inl (Com.idle_hostRead _ _)
  | txAvailable reads =>
      obtain rfl := Option.some.inj he
      exact Or.inl ((Com.idle_schedule s.com reads).trans (Com.idle_usbComTxAvailable _))
  | txSend buffer reads =>
      obtain rfl : buffer = [] := hq.2
      obtain rfl := Option.some.inj he
      exact Or.inl (Com.idle_schedule s.com reads)
  | txSendByte byte reads => cases hq.2
  | service readings now reads =>
      obtain ⟨d, hd, rfl⟩ := Option.map_eq_some_iff.mp he
      have hi := Com.idle_schedule s.com reads
      exact Or.inr (((h.lossless.idle hi).usbComService hq.1.2.2 hd).2.of_idle hi)

/-- With no byte loaded, at most an empty packet is committed. -/
theorem quiet_commits (h : s.Invariant) (hnil : s.com.ep4.loaded = [])
    (hq : s.Quiet serial a) (he : s.step serial a = some t) : t.com.ep4.loaded = [] ∧
      (t.com.ep4.committed = s.com.ep4.committed ∨
        s.com.device.vars.sendEmptyPacketSoon = true ∧
          t.com.ep4.committed = s.com.ep4.committed ++ [[]]) := by
  rcases quiet_step h hq he with hi | hs
  · exact ⟨hi.ep4.loaded.trans hnil, Or.inl hi.ep4.committed⟩
  · exact ⟨hs.loaded, hs.idle hnil⟩

theorem Lossless.not_due {packets : List (List UInt8)} {sent : List UInt8} (h : Lossless c sent)
    (hc : c.ep4.committed = packets ++ [[]]) : c.device.vars.sendEmptyPacketSoon ≠ true := by
  intro hsoon
  obtain ⟨packet, hlast, hlen⟩ := h.full.mp hsoon
  rw [hc, List.getLast?_concat] at hlast
  obtain rfl := Option.some.inj hlast
  cases hlen

theorem quiet_run (h : s.Invariant) (hnil : s.com.ep4.loaded = [])
    (hr : Run (Station.step serial) (Quiet serial) s t) :
    t.com.ep4.committed = s.com.ep4.committed ∨
      s.com.device.vars.sendEmptyPacketSoon = true ∧
        t.com.ep4.committed = s.com.ep4.committed ++ [[]] := by
  suffices hinv : t.Invariant ∧ t.com.ep4.loaded = [] ∧
      (t.com.ep4.committed = s.com.ep4.committed ∨
        s.com.device.vars.sendEmptyPacketSoon = true ∧
          t.com.ep4.committed = s.com.ep4.committed ++ [[]]) from hinv.2.2
  apply hr.invariant ⟨h, hnil, Or.inl rfl⟩
  rintro u a v ⟨hu, hl, hsame⟩ hq he
  obtain ⟨hv, hstep⟩ := quiet_commits hu hl hq he
  refine ⟨hu.step hq.granted he, hv, ?_⟩
  rcases hstep with hstep | ⟨hsoon, hstep⟩
  · rw [hstep]
    exact hsame
  · rcases hsame with hsame | ⟨-, hsame⟩
    · refine Or.inr ⟨?_, by rw [hstep, hsame]⟩
      have hlast := hu.lossless.full.mp hsoon
      rw [hsame] at hlast
      exact h.lossless.full.mpr hlast
    · exact absurd hsoon (Lossless.not_due hu.lossless hsame)

/-- The packets are the bytes that have been sent, and the counters describe the FIFO. -/
structure IsStream (s : Station) : Prop where
  bytes : s.com.ep4.committed.flatten ++ s.com.ep4.loaded = s.sent
  sizes : ∀ packet ∈ s.com.ep4.committed, packet.length ≤ 64
  waiting : s.com.ep4.waiting.length ≤ 2
  overruns : s.com.ep4.overruns = 0
  loaded : s.com.device.vars.inFifoBytesLoaded.toNat = s.com.ep4.loaded.length
  lt : s.com.device.vars.inFifoBytesLoaded.toNat < 64
  full : s.com.device.vars.sendEmptyPacketSoon = true ↔
    ∃ packet, s.com.ep4.committed.getLast? = some packet ∧ packet.length = 64

theorem Invariant.isStream (h : s.Invariant) : s.IsStream where
  bytes := h.lossless.bytes
  sizes := h.lossless.sizes
  waiting := h.lossless.waiting_le
  overruns := h.lossless.overruns
  loaded := h.lossless.loaded
  lt := by
    rw [h.lossless.loaded]
    exact h.lossless.lt
  full := h.lossless.full

theorem service_sends_empty_packet (h : s.Invariant) {readings : Readings} {now : UInt32}
    {reads : List (List HostRead)} (hl : s.com.ep4.loaded = []) (hw : s.com.ep4.waiting = [])
    (hsoon : s.com.device.vars.sendEmptyPacketSoon = true)
    (hs : s.StaysConfigured serial (.service readings now reads))
    (he : s.step serial (.service readings now reads) = some t) :
    t.com.ep4.committed = s.com.ep4.committed ++ [[]] := by
  obtain ⟨d, hd, rfl⟩ := Option.map_eq_some_iff.mp he
  have hi := Com.idle_schedule s.com reads
  have hd := ((h.lossless.idle hi).usbComService hs.2.2 hd).2.of_idle hi
  exact hd.empty hl hw hsoon

/-- The bytes are neither lost nor reordered, and a full packet at the end is followed by one empty
packet. -/
theorem usb_com_tx_stream (serial : ℕ → UInt8) (c : Com) (s : Station) (hc : Fresh c)
    (hr : Run (step serial) (Granted serial) (start c) s) : s.IsStream ∧
    (∀ buffer reads, s.Granted serial (.txSend buffer reads) →
      (s.step serial (.txSend buffer reads)).isSome) ∧
    (∀ readings now reads t, s.com.ep4.loaded = [] → s.com.ep4.waiting = [] →
      s.com.device.vars.sendEmptyPacketSoon = true →
      s.StaysConfigured serial (.service readings now reads) →
      s.step serial (.service readings now reads) = some t →
      t.com.ep4.committed = s.com.ep4.committed ++ [[]]) ∧
    ∀ t, s.com.ep4.loaded = [] → Run (step serial) (Quiet serial) s t →
      t.com.ep4.committed = s.com.ep4.committed ∨
        s.com.device.vars.sendEmptyPacketSoon = true ∧
          t.com.ep4.committed = s.com.ep4.committed ++ [[]] := by
  have h : s.Invariant := (invariant_start hc).run hr
  refine ⟨h.isStream, fun buffer reads hg => ?_, fun _ _ _ _ hl hw hsoon hs he => ?_,
    fun _ hl hq => quiet_run h hl hq⟩
  · obtain ⟨d, hd, -⟩ := h.txSend reads hg
    rw [Station.step, hd]
    rfl
  · exact service_sends_empty_packet h hl hw hsoon hs he

end Station

def configured : Com := ⟨{ UsbCdcAcm.init with usbDeviceState := .configured }, .empty, .empty, []⟩

theorem fresh_configured : Fresh configured := ⟨rfl, rfl, rfl, rfl⟩

namespace Station

/-- 64 bytes are sent, and the host reads them before the second call of usbComService(). -/
theorem usb_com_tx_stream_full_packet :
    ∃ s, Run (step fun _ => 0) (Granted fun _ => 0) (start configured) s ∧
      s.com.ep4.committed = [List.replicate 64 7, []] ∧
      s.com.device.vars.sendEmptyPacketSoon = false := by
  have hrun : (exec (step fun _ => 0) (Granted fun _ => 0) (start configured)
      [.txAvailable [], .txSend (List.replicate 64 7) [], .service (.packet 0x00 []) 0 [],
        .hostRead .data, .service (.packet 0x00 []) 0 []]).map (fun s => s.com.ep4.committed) =
      some [List.replicate 64 7, []] := by
    decide +kernel
  obtain ⟨s, hr, hs⟩ := exists_run_of_exec hrun
  obtain ⟨hstream, -, -, -⟩ := usb_com_tx_stream (fun _ => 0) configured s fresh_configured hr
  have hfull := hstream.full
  rw [hs] at hfull
  refine ⟨s, hr, hs, Bool.eq_false_iff.mpr fun hsoon => ?_⟩
  obtain ⟨packet, hlast, hlen⟩ := hfull.mp hsoon
  obtain rfl := Option.some.inj hlast
  cases hlen

end Station
end WixelSdk.UsbCom
