import WixelSdk.UsbCom

/-!
# The transmit path of the USB COM port

`Buffered` says how the counters of the library describe the FIFO of the data endpoint, and
`Lossless` adds that there is no full packet under construction. A call of usbComTxSendByte() keeps
it as long as the FIFO has room for the byte, and usbComTxSend() does for each of its bytes what
usbComTxSendByte() does.
-/

namespace WixelSdk.UsbCom
open Usb UsbCdcAcm Transition

/-- The bytes in the FIFO, with each packet taking up a buffer. -/
def fill (e : EndpointIn) : ℕ := e.loaded.length + 64 * e.waiting.length

structure Buffered (c : Com) (sent : List UInt8) : Prop where
  configured : c.device.usbDeviceState = .configured
  bytes : c.ep4.committed.flatten ++ c.ep4.loaded = sent
  sizes : ∀ packet ∈ c.ep4.committed, packet.length ≤ 64
  fits : fill c.ep4 ≤ 128
  loaded : c.device.vars.inFifoBytesLoaded.toNat = c.ep4.loaded.length
  full : c.device.vars.sendEmptyPacketSoon = true ↔
    ∃ packet, c.ep4.committed.getLast? = some packet ∧ packet.length = 64
  overruns : c.ep4.overruns = 0

structure Lossless (c : Com) (sent : List UInt8) : Prop extends Buffered c sent where
  lt : c.ep4.loaded.length < 64

/-- The host may have read packets; nothing else has happened to the data endpoint. -/
structure Idle (c d : Com) : Prop where
  ep4 : c.ep4.ReadFrom d.ep4
  usbDeviceState : d.device.usbDeviceState = c.device.usbDeviceState
  sendEmptyPacketSoon : d.device.vars.sendEmptyPacketSoon = c.device.vars.sendEmptyPacketSoon
  inFifoBytesLoaded : d.device.vars.inFifoBytesLoaded = c.device.vars.inFifoBytesLoaded

variable {c d : Com} {sent : List UInt8}

namespace Idle

theorem of_eq (hd : d.device = c.device) (he : c.ep4.ReadFrom d.ep4) : Idle c d := by
  refine ⟨he, ?_, ?_, ?_⟩ <;> rw [hd]

theorem refl (c : Com) : Idle c c := of_eq rfl .refl

theorem trans {e : Com} (h : Idle c d) (h' : Idle d e) : Idle c e where
  ep4 := h.ep4.trans h'.ep4
  usbDeviceState := h'.usbDeviceState.trans h.usbDeviceState
  sendEmptyPacketSoon := h'.sendEmptyPacketSoon.trans h.sendEmptyPacketSoon
  inFifoBytesLoaded := h'.inFifoBytesLoaded.trans h.inFifoBytesLoaded

end Idle

namespace Com

theorem hostRead_device (c : Com) (read : HostRead) : (c.hostRead read).device = c.device := by
  cases read <;> rfl

theorem idle_hostRead (c : Com) (read : HostRead) : Idle c (c.hostRead read) := by
  apply Idle.of_eq (hostRead_device c read)
  cases read with
  | data => exact .read
  | notification => exact .refl

theorem hostReads_spec (c : Com) (reads : List HostRead) :
    (reads.foldl hostRead c).device = c.device ∧ c.ep4.ReadFrom (reads.foldl hostRead c).ep4 := by
  induction reads generalizing c with
  | nil => exact ⟨rfl, .refl⟩
  | cons read reads ih =>
      obtain ⟨hd, he⟩ := ih (c.hostRead read)
      exact ⟨hd.trans (hostRead_device c read), (idle_hostRead c read).ep4.trans he⟩

theorem host_device (c : Com) : c.host.device = c.device :=
  (hostReads_spec c _).1

theorem host_ep4 (c : Com) : c.ep4.ReadFrom c.host.ep4 := (hostReads_spec c _).2

theorem idle_host (c : Com) : Idle c c.host := .of_eq c.host_device c.host_ep4

theorem idle_select (c : Com) (endpointNumber : UInt8) : Idle c (c.select endpointNumber) :=
  ⟨.refl, rfl, rfl, rfl⟩

theorem idle_schedule (c : Com) (reads : List (List HostRead)) : Idle c (c.schedule reads) :=
  .of_eq rfl .refl

theorem selected_data (c : Com) : (c.select 4).host.selected = (c.select 4).host.ep4 := by
  unfold selected
  rw [host_device]
  rfl

theorem serviceData_eq (c : Com) : c.serviceData =
    if (c.select 4).host.device.vars.inFifoBytesLoaded ≠ 0 ∨
        (c.select 4).host.device.vars.sendEmptyPacketSoon = true ∧
          (c.select 4).host.ep4.pktPresent = false then
      (c.select 4).host.sendPacketNow
    else (c.select 4).host := by
  unfold serviceData
  dsimp only
  rw [c.selected_data]

end Com

theorem fill_readFrom {e f : EndpointIn} (h : e.ReadFrom f) : fill f ≤ fill e := by
  have hw := h.waiting
  unfold fill
  rw [h.loaded]
  omega

theorem Buffered.idle (h : Buffered c sent) (hi : Idle c d) : Buffered d sent where
  configured := hi.usbDeviceState.trans h.configured
  bytes := by rw [hi.ep4.committed, hi.ep4.loaded, h.bytes]
  sizes := by rw [hi.ep4.committed]; exact h.sizes
  fits := Nat.le_trans (fill_readFrom hi.ep4) h.fits
  loaded := by rw [hi.inFifoBytesLoaded, hi.ep4.loaded, h.loaded]
  full := by rw [hi.sendEmptyPacketSoon, hi.ep4.committed]; exact h.full
  overruns := hi.ep4.overruns.trans h.overruns

theorem Lossless.idle (h : Lossless c sent) (hi : Idle c d) : Lossless d sent :=
  ⟨h.toBuffered.idle hi, by rw [hi.ep4.loaded]; exact h.lt⟩

theorem Lossless.waiting_le (h : Lossless c sent) : c.ep4.waiting.length ≤ 2 := by
  have hf := h.fits
  unfold fill at hf
  omega

/-! ### usbComTxAvailable -/

theorem pktPresent_iff (e : EndpointIn) : e.pktPresent = true ↔ 0 < e.waiting.length := by
  unfold EndpointIn.pktPresent
  cases e.waiting <;> simp

theorem inpktRdy_iff (e : EndpointIn) : e.inpktRdy = true ↔ 2 ≤ e.waiting.length :=
  decide_eq_true_iff

theorem idle_select_host (c : Com) (endpointNumber : UInt8) :
    Idle c (c.select endpointNumber).host :=
  (c.idle_select endpointNumber).trans (Com.idle_host _)

theorem Com.idle_usbComTxAvailable (c : Com) : Idle c c.usbComTxAvailable.2 := by
  unfold Com.usbComTxAvailable
  dsimp only
  split_ifs
  · exact .refl c
  · exact idle_select_host c 4
  · exact idle_select_host c 4
  · exact idle_select_host c 4

/-- The two buffers hold what is in the FIFO and as many bytes as usbComTxAvailable() returns. -/
theorem Lossless.usbComTxAvailable (h : Lossless c sent) :
    Lossless c.usbComTxAvailable.2 sent ∧
      c.usbComTxAvailable.1.toNat + fill c.usbComTxAvailable.2.ep4 = 128 := by
  refine ⟨h.idle c.idle_usbComTxAvailable, ?_⟩
  have hd : Lossless (c.select 4).host sent := h.idle (idle_select_host c 4)
  have hlt := hd.lt
  have hl := hd.loaded
  have hfits := hd.fits
  have hconf : ¬ c.device.usbDeviceState ≠ .configured := not_not.mpr h.configured
  unfold Com.usbComTxAvailable
  rw [if_neg hconf]
  dsimp only
  rw [Com.selected_data]
  generalize (c.select 4).host = d at *
  unfold fill at hfits ⊢
  by_cases hp : d.ep4.pktPresent = true
  · have hpos := (pktPresent_iff _).mp hp
    rw [if_pos hp]
    by_cases hr : d.ep4.inpktRdy = true
    · have h2 := (inpktRdy_iff _).mp hr
      rw [if_pos hr]
      change 0 + (d.ep4.loaded.length + 64 * d.ep4.waiting.length) = 128
      omega
    · have h2 : ¬ 2 ≤ d.ep4.waiting.length := fun h2 => hr ((inpktRdy_iff _).mpr h2)
      have hle : d.device.vars.inFifoBytesLoaded ≤ Com.cdcInPacketSize := by
        rw [UInt8.le_iff_toNat_le, hl]
        exact Nat.le_of_lt hlt
      have h64 : Com.cdcInPacketSize.toNat = 64 := rfl
      rw [if_neg hr]
      dsimp only
      rw [UInt8.toNat_sub_of_le _ _ hle, hl, h64]
      omega
  · have hnone : ¬ 0 < d.ep4.waiting.length := fun hpos => hp ((pktPresent_iff _).mpr hpos)
    have h128 : (Com.cdcInPacketSize <<< 1).toNat = 128 := rfl
    have hle : d.device.vars.inFifoBytesLoaded ≤ Com.cdcInPacketSize <<< 1 := by
      rw [UInt8.le_iff_toNat_le, hl, h128]
      omega
    rw [if_neg hp]
    dsimp only
    rw [UInt8.toNat_sub_of_le _ _ hle, hl, h128]
    omega

/-! ### Sending a packet -/

structure Commits (c d : Com) : Prop where
  committed : d.ep4.committed = c.ep4.committed ++ [c.ep4.loaded]
  waiting : d.ep4.waiting.length ≤ c.ep4.waiting.length + 1
  loaded : d.ep4.loaded = []
  overruns : d.ep4.overruns = c.ep4.overruns
  usbDeviceState : d.device.usbDeviceState = c.device.usbDeviceState
  sendEmptyPacketSoon : d.device.vars.sendEmptyPacketSoon =
    decide (c.device.vars.inFifoBytesLoaded = Com.cdcInPacketSize)
  inFifoBytesLoaded : d.device.vars.inFifoBytesLoaded = 0

theorem commits_sendPacketNow (hw : c.ep4.waiting.length < 2) : Commits c c.sendPacketNow := by
  have hd : (c.select 4).host.device = (c.select 4).device := (c.select 4).host_device
  have hindex : (c.select 4).host.device.usbindex = 4 := by
    rw [hd]
    rfl
  have he : c.ep4.ReadFrom (c.select 4).host.ep4 := (c.select 4).host_ep4
  have hset : (c.select 4).host.setInpktRdy =
      { (c.select 4).host with ep4 := (c.select 4).host.ep4.commit } := if_pos hindex
  have hfree : (c.select 4).host.ep4.waiting.length < 2 := Nat.lt_of_le_of_lt he.waiting hw
  have hsend : c.sendPacketNow.ep4 = (c.select 4).host.ep4.commit := by
    unfold Com.sendPacketNow
    rw [hset]
    rfl
  have hvars : c.sendPacketNow.device.usbDeviceState = c.device.usbDeviceState ∧
      c.sendPacketNow.device.vars.sendEmptyPacketSoon =
        decide (c.device.vars.inFifoBytesLoaded = Com.cdcInPacketSize) ∧
      c.sendPacketNow.device.vars.inFifoBytesLoaded = 0 := by
    unfold Com.sendPacketNow
    rw [hset]
    dsimp only [Com.setVars]
    rw [hd]
    exact ⟨rfl, rfl, rfl⟩
  have hwaiting := he.waiting
  have hcommitted := he.committed
  unfold EndpointIn.committed at hcommitted
  rw [EndpointIn.commit_of_free hfree] at hsend
  refine ⟨?_, ?_, ?_, ?_, hvars.1, hvars.2.1, hvars.2.2⟩
  · rw [hsend, EndpointIn.committed, EndpointIn.committed]
    dsimp only
    rw [← List.append_assoc, hcommitted, he.loaded]
  · rw [hsend, List.length_append, List.length_singleton]
    omega
  · rw [hsend]
  · rw [hsend]
    exact he.overruns

theorem Commits.fill (h : Commits c d) : fill d.ep4 ≤ 64 * (c.ep4.waiting.length + 1) := by
  have hw := h.waiting
  unfold UsbCom.fill
  rw [h.loaded, List.length_nil]
  omega

/-- With a packet of up to 64 bytes. -/
theorem Commits.lossless (h : Commits c d) (hb : Buffered c sent) (hle : c.ep4.loaded.length ≤ 64)
    (hw : c.ep4.waiting.length < 2) : Lossless d sent where
  configured := h.usbDeviceState.trans hb.configured
  bytes := by
    rw [h.committed, h.loaded, List.flatten_append, List.flatten_singleton, List.append_nil,
      hb.bytes]
  sizes packet hp := by
    rw [h.committed] at hp
    rcases List.mem_append.mp hp with hp | hp
    · exact hb.sizes packet hp
    · rw [List.mem_singleton.mp hp]
      exact hle
  fits := Nat.le_trans h.fill (by omega)
  loaded := by
    rw [h.inFifoBytesLoaded, h.loaded]
    rfl
  full := by
    have hl := hb.loaded
    have hsize : c.device.vars.inFifoBytesLoaded = Com.cdcInPacketSize ↔
        c.ep4.loaded.length = 64 := by
      rw [← UInt8.toNat_inj, hl]
      rfl
    rw [h.sendEmptyPacketSoon, decide_eq_true_eq, hsize, h.committed, List.getLast?_concat]
    simp
  overruns := h.overruns.trans hb.overruns
  lt := by
    rw [h.loaded]
    decide

theorem Buffered.sendIfFull (h : Buffered c sent) (hle : c.ep4.loaded.length ≤ 64) :
    Lossless c.sendIfFull sent ∧ fill c.sendIfFull.ep4 ≤ fill c.ep4 := by
  have hl := h.loaded
  have hf := h.fits
  unfold Com.sendIfFull
  by_cases hfull : c.device.vars.inFifoBytesLoaded = Com.cdcInPacketSize
  · have h64 : c.ep4.loaded.length = 64 := by
      rw [← hl, hfull]
      rfl
    have hw : c.ep4.waiting.length < 2 := by
      unfold fill at hf
      omega
    have hcommit := commits_sendPacketNow hw
    rw [if_pos hfull]
    refine ⟨hcommit.lossless h hle hw, Nat.le_trans hcommit.fill ?_⟩
    unfold fill
    omega
  · rw [if_neg hfull]
    refine ⟨⟨h, ?_⟩, Nat.le_refl _⟩
    have hne : c.ep4.loaded.length ≠ 64 := fun h64 =>
      hfull (UInt8.toNat_inj.mp (hl.trans h64))
    omega

/-! ### usbComTxSendByte -/

structure Loads (c : Com) (byte : UInt8) (d : Com) : Prop where
  device : d.device = c.device
  committed : d.ep4.committed = c.ep4.committed
  waiting : d.ep4.waiting.length ≤ c.ep4.waiting.length
  loaded : d.ep4.loaded = c.ep4.loaded ++ [byte]
  overruns : d.ep4.overruns = c.ep4.overruns

theorem loads_writeData (hw : c.ep4.waiting.length < 2) (byte : UInt8) :
    Loads c byte (c.writeData byte) := by
  have he := c.host_ep4
  have hfree : c.host.ep4.waiting.length < 2 := Nat.lt_of_le_of_lt he.waiting hw
  have hep : (c.writeData byte).ep4 = { c.host.ep4 with loaded := c.host.ep4.loaded ++ [byte] } :=
    EndpointIn.write_of_free hfree byte
  refine ⟨c.host_device, ?_, ?_, ?_, ?_⟩
  · rw [hep]
    exact he.committed
  · rw [hep]
    exact he.waiting
  · rw [hep, he.loaded]
  · rw [hep]
    exact he.overruns

theorem Lossless.counted {byte : UInt8} (h : Lossless c sent) (hd : Loads c byte d)
    (hroom : fill c.ep4 < 128) :
    Buffered (d.setVars { d.device.vars with
      inFifoBytesLoaded := d.device.vars.inFifoBytesLoaded + 1 }) (sent ++ [byte]) ∧
      fill d.ep4 ≤ 1 + fill c.ep4 := by
  have hw := hd.waiting
  have hlen : d.ep4.loaded.length = c.ep4.loaded.length + 1 := by
    rw [hd.loaded, List.length_append, List.length_singleton]
  have hfill : fill d.ep4 ≤ 1 + fill c.ep4 := by
    unfold fill
    omega
  refine ⟨⟨?_, ?_, ?_, ?_, ?_, ?_, hd.overruns.trans h.overruns⟩, hfill⟩
  · dsimp only [Com.setVars]
    rw [hd.device]
    exact h.configured
  · change d.ep4.committed.flatten ++ d.ep4.loaded = _
    rw [hd.committed, hd.loaded, ← List.append_assoc, h.bytes]
  · change ∀ packet ∈ d.ep4.committed, _
    rw [hd.committed]
    exact h.sizes
  · change fill d.ep4 ≤ 128
    omega
  · change (d.device.vars.inFifoBytesLoaded + 1).toNat = d.ep4.loaded.length
    have hlt := h.lt
    have hone : (1 : UInt8).toNat = 1 := rfl
    rw [hd.device, UInt8.toNat_add, h.loaded, hlen, hone]
    omega
  · dsimp only [Com.setVars]
    rw [hd.device, hd.committed]
    exact h.full

theorem Lossless.usbComTxSendByte (h : Lossless c sent) (hroom : fill c.ep4 < 128) (byte : UInt8) :
    Lossless (c.usbComTxSendByte byte) (sent ++ [byte]) ∧
      fill (c.usbComTxSendByte byte).ep4 ≤ 1 + fill c.ep4 := by
  have hw : c.ep4.waiting.length < 2 := by
    unfold fill at hroom
    omega
  have hd := loads_writeData hw byte
  have hlen : (c.writeData byte).ep4.loaded.length ≤ 64 := by
    rw [hd.loaded, List.length_append, List.length_singleton]
    exact h.lt
  obtain ⟨hb, hfill⟩ := h.counted hd hroom
  obtain ⟨he, hless⟩ := hb.sendIfFull hlen
  exact ⟨he, Nat.le_trans hless hfill⟩

/-! ### usbComTxSend -/

namespace Com

theorem hostReads_setVars (c : Com) (v : Vars) (reads : List HostRead) :
    reads.foldl hostRead (c.setVars v) = (reads.foldl hostRead c).setVars v := by
  induction reads generalizing c with
  | nil => rfl
  | cons read reads ih =>
      have hread : (c.setVars v).hostRead read = (c.hostRead read).setVars v := by
        cases read <;> rfl
      rw [List.foldl_cons, List.foldl_cons, hread, ih]

theorem writeData_setVars (c : Com) (v : Vars) (byte : UInt8) :
    (c.setVars v).writeData byte = (c.writeData byte).setVars v := by
  have hhost : (c.setVars v).host = c.host.setVars v := by
    have hreads := hostReads_setVars c v (c.hostReads.headD [])
    unfold host
    dsimp only [setVars] at hreads ⊢
    rw [hreads]
  unfold writeData
  rw [hhost]
  rfl

theorem usbWriteFifo_setVars (c : Com) (v : Vars) (bytes : List UInt8) :
    usbWriteFifo bytes (c.setVars v) = (usbWriteFifo bytes c).setVars v := by
  induction bytes generalizing c with
  | nil => rfl
  | cons byte bytes ih => rw [usbWriteFifo, writeData_setVars, ih, usbWriteFifo]

theorem usbWriteFifo_device (c : Com) (bytes : List UInt8) :
    (usbWriteFifo bytes c).device = c.device := by
  induction bytes generalizing c with
  | nil => rfl
  | cons byte bytes ih =>
      have hwrite : (c.writeData byte).device = c.device := c.host_device
      rw [usbWriteFifo, ih, hwrite]

theorem load_cons (c : Com) (byte : UInt8) (bytes : List UInt8) :
    c.load (byte :: bytes) = (c.load [byte]).load bytes := by
  have hd : (c.writeData byte).device = c.device := c.host_device
  have hcount : UInt8.ofNat (bytes.length + 1) = 1 + UInt8.ofNat bytes.length := by
    rw [Nat.add_comm, UInt8.ofNat_add]
    rfl
  unfold load
  dsimp only
  rw [usbWriteFifo_setVars]
  dsimp only [usbWriteFifo, setVars]
  rw [usbWriteFifo_device, hd, List.length_cons, hcount, ← UInt8.add_assoc]
  rfl

theorem load_inFifoBytesLoaded (c : Com) (bytes : List UInt8) :
    (c.load bytes).device.vars.inFifoBytesLoaded =
      c.device.vars.inFifoBytesLoaded + UInt8.ofNat bytes.length := by
  unfold load
  dsimp only [setVars]
  rw [usbWriteFifo_device]

theorem usbComTxSendByte_eq_load (c : Com) (byte : UInt8) :
    c.usbComTxSendByte byte = (c.load [byte]).sendIfFull := rfl

theorem sendIfFull_of_lt {n : ℕ} (hn : n < 64)
    (hl : c.device.vars.inFifoBytesLoaded.toNat = n) : c.sendIfFull = c := by
  apply if_neg
  intro hfull
  rw [hfull] at hl
  have h64 : cdcInPacketSize.toNat = 64 := rfl
  omega

/-- The bytes that go into one packet. -/
theorem load_sendIfFull {bytes : List UInt8} (hne : bytes ≠ [])
    (hle : c.device.vars.inFifoBytesLoaded.toNat + bytes.length ≤ 64) :
    (c.load bytes).sendIfFull = bytes.foldl usbComTxSendByte c := by
  induction bytes generalizing c with
  | nil => exact absurd rfl hne
  | cons byte bytes ih =>
      cases hb : bytes with
      | nil => rfl
      | cons next rest =>
          rw [hb, List.length_cons, List.length_cons] at hle
          have hone : (UInt8.ofNat [byte].length).toNat = 1 := rfl
          have hcount : (c.load [byte]).device.vars.inFifoBytesLoaded.toNat =
              c.device.vars.inFifoBytesLoaded.toNat + 1 := by
            rw [load_inFifoBytesLoaded, UInt8.toNat_add, hone]
            omega
          have hbyte : c.usbComTxSendByte byte = c.load [byte] := by
            rw [usbComTxSendByte_eq_load]
            exact sendIfFull_of_lt (by omega) hcount
          have hrest : bytes ≠ [] := by simp [hb]
          have hlen : (c.load [byte]).device.vars.inFifoBytesLoaded.toNat + bytes.length ≤ 64 := by
            rw [hcount, hb, List.length_cons]
            omega
          rw [← hb, load_cons, List.foldl_cons, hbyte]
          exact ih hrest hlen

theorem sendIfFull_lt (hle : c.device.vars.inFifoBytesLoaded.toNat ≤ 64) :
    c.sendIfFull.device.vars.inFifoBytesLoaded.toNat < 64 := by
  unfold sendIfFull
  by_cases hfull : c.device.vars.inFifoBytesLoaded = cdcInPacketSize
  · rw [if_pos hfull]
    change (0 : UInt8).toNat < 64
    decide
  · rw [if_neg hfull]
    have hne : c.device.vars.inFifoBytesLoaded.toNat ≠ 64 := fun h64 =>
      hfull (UInt8.toNat_inj.mp h64)
    omega

/-- Each pass sends some of the bytes, as one call of usbComTxSendByte() for each would. -/
theorem sendPass_spec (byte : UInt8) (buffer : List UInt8)
    (hlt : c.device.vars.inFifoBytesLoaded.toNat < 64) :
    ∃ n, 0 < n ∧ (c.sendPass (byte :: buffer)).1 = (byte :: buffer).drop n ∧
      (c.sendPass (byte :: buffer)).2 = ((byte :: buffer).take n).foldl usbComTxSendByte c ∧
      (c.sendPass (byte :: buffer)).2.device.vars.inFifoBytesLoaded.toNat < 64 := by
  have hle : c.device.vars.inFifoBytesLoaded ≤ cdcInPacketSize := Nat.le_of_lt hlt
  have h64 : cdcInPacketSize.toNat = 64 := rfl
  have hn : c.packetSize (byte :: buffer).length =
      min (64 - c.device.vars.inFifoBytesLoaded.toNat) (buffer.length + 1) := by
    rw [packetSize, UInt8.toNat_sub_of_le _ _ hle, h64, List.length_cons]
  have hlen : ((byte :: buffer).take (c.packetSize (byte :: buffer).length)).length =
      c.packetSize (byte :: buffer).length := by
    apply List.length_take_of_le
    rw [hn]
    exact Nat.min_le_right _ _
  have hpass : (c.sendPass (byte :: buffer)).2 =
      (c.load ((byte :: buffer).take (c.packetSize (byte :: buffer).length))).sendIfFull := by
    dsimp only [sendPass]
  refine ⟨c.packetSize (byte :: buffer).length, by omega, rfl, ?_, ?_⟩
  · rw [hpass]
    refine load_sendIfFull (fun hnil => ?_) (by omega)
    have hz := congrArg List.length hnil
    rw [hlen, List.length_nil] at hz
    omega
  · rw [hpass]
    apply sendIfFull_lt
    rw [load_inFifoBytesLoaded, UInt8.toNat_add, UInt8.toNat_ofNat', hlen]
    omega

theorem sendLoop_eq {buffer : List UInt8} (passes : ℕ) (hp : buffer.length ≤ passes)
    (hlt : c.device.vars.inFifoBytesLoaded.toNat < 64) :
    sendLoop passes buffer c = some (buffer.foldl usbComTxSendByte c) := by
  induction passes generalizing buffer c with
  | zero =>
      obtain rfl : buffer = [] := List.eq_nil_of_length_eq_zero (Nat.le_zero.mp hp)
      rfl
  | succ passes ih =>
      cases buffer with
      | nil => rfl
      | cons byte buffer =>
          obtain ⟨n, hpos, hrest, hpass, hcount⟩ := sendPass_spec byte buffer hlt
          have hlen : (c.sendPass (byte :: buffer)).1.length ≤ passes := by
            rw [hrest, List.length_drop, List.length_cons]
            rw [List.length_cons] at hp
            omega
          rw [sendLoop, ih hlen hcount, hrest, hpass, ← List.foldl_append, List.take_append_drop]

/-- usbComTxSend() sends what a call of usbComTxSendByte() for each byte would. -/
theorem usbComTxSend_eq (buffer : List UInt8)
    (hlt : c.device.vars.inFifoBytesLoaded.toNat < 64) :
    c.usbComTxSend buffer = some (buffer.foldl usbComTxSendByte c) :=
  sendLoop_eq _ (Nat.le_succ _) hlt

end Com

theorem Lossless.sendBytes {buffer : List UInt8} (h : Lossless c sent)
    (hroom : buffer.length + fill c.ep4 ≤ 128) :
    Lossless (buffer.foldl Com.usbComTxSendByte c) (sent ++ buffer) ∧
      fill (buffer.foldl Com.usbComTxSendByte c).ep4 ≤ buffer.length + fill c.ep4 := by
  induction buffer generalizing c sent with
  | nil =>
      rw [List.append_nil]
      exact ⟨h, Nat.le_add_left _ _⟩
  | cons byte buffer ih =>
      rw [List.length_cons] at hroom ⊢
      obtain ⟨hd, hfill⟩ := h.usbComTxSendByte (by omega) byte
      obtain ⟨he, hrest⟩ := ih hd (by omega)
      rw [List.append_assoc, List.singleton_append] at he
      exact ⟨he, Nat.le_trans hrest (by omega)⟩

theorem Lossless.usbComTxSend {buffer : List UInt8} (h : Lossless c sent)
    (hroom : buffer.length + fill c.ep4 ≤ 128) :
    ∃ d, c.usbComTxSend buffer = some d ∧ Lossless d (sent ++ buffer) ∧
      fill d.ep4 ≤ buffer.length + fill c.ep4 := by
  have hlt : c.device.vars.inFifoBytesLoaded.toNat < 64 := by
    rw [h.loaded]
    exact h.lt
  exact ⟨_, Com.usbComTxSend_eq buffer hlt, h.sendBytes hroom⟩

end WixelSdk.UsbCom
