import WixelSdk.UsbComStream

/-!
# The documented rule for sending bytes to the host

`usb_com.h` allows as many bytes as the last value of usbComTxAvailable(), whatever has happened
since. A call of usbComService() in between commits a packet of fewer than 64 bytes, and that takes
up a whole buffer. The bytes are kept as long as the FIFO has room for them when they are sent.
-/

namespace WixelSdk.UsbCom
open Usb UsbCdcAcm Transition

variable {c d : Com} {sent : List UInt8}

/-! ### Sends that the host does not read during -/

namespace Com

theorem host_of_nil (hn : c.hostReads = []) : c.host = c := by
  unfold host
  rw [hn]
  change { c with hostReads := [] } = c
  rw [← hn]

theorem sendPacketNow_of_nil (hn : c.hostReads = []) :
    c.sendPacketNow.hostReads = [] ∧ c.sendPacketNow.ep4 = c.ep4.commit := by
  have hhost : (c.select 4).host = c.select 4 := host_of_nil hn
  have hset : (c.select 4).setInpktRdy = { c.select 4 with ep4 := c.ep4.commit } := if_pos rfl
  unfold sendPacketNow
  rw [hhost, hset]
  exact ⟨hn, rfl⟩

theorem sendIfFull_of_nil (hn : c.hostReads = []) : c.sendIfFull.hostReads = [] ∧
    c.sendIfFull.ep4 =
      if c.device.vars.inFifoBytesLoaded = cdcInPacketSize then c.ep4.commit else c.ep4 := by
  unfold sendIfFull
  by_cases hfull : c.device.vars.inFifoBytesLoaded = cdcInPacketSize
  · rw [if_pos hfull, if_pos hfull]
    exact sendPacketNow_of_nil hn
  · rw [if_neg hfull, if_neg hfull]
    exact ⟨hn, rfl⟩

theorem usbComTxSendByte_of_nil (hn : c.hostReads = []) (byte : UInt8) :
    (c.usbComTxSendByte byte).hostReads = [] ∧
    (c.usbComTxSendByte byte).ep4 =
      if c.device.vars.inFifoBytesLoaded + 1 = cdcInPacketSize then (c.ep4.write byte).commit
      else c.ep4.write byte := by
  have hwrite : c.writeData byte = { c with ep4 := c.ep4.write byte } := by
    rw [writeData, host_of_nil hn]
  unfold usbComTxSendByte
  rw [hwrite]
  exact sendIfFull_of_nil hn

end Com

theorem overruns_le_write (e : EndpointIn) (byte : UInt8) :
    e.overruns ≤ (e.write byte).overruns := by
  unfold EndpointIn.write
  split_ifs
  · exact Nat.le_succ _
  · exact Nat.le_refl _

theorem overruns_le_commit (e : EndpointIn) : e.overruns ≤ e.commit.overruns := by
  unfold EndpointIn.commit
  split_ifs
  · exact Nat.le_succ _
  · exact Nat.le_refl _

theorem write_overruns_le (hn : c.hostReads = []) (byte : UInt8) :
    (c.ep4.write byte).overruns ≤ (c.usbComTxSendByte byte).ep4.overruns := by
  rw [(Com.usbComTxSendByte_of_nil hn byte).2]
  split_ifs
  · exact overruns_le_commit _
  · exact Nat.le_refl _

theorem overruns_le_sendBytes {bytes : List UInt8} (hn : c.hostReads = []) :
    c.ep4.overruns ≤ (bytes.foldl Com.usbComTxSendByte c).ep4.overruns := by
  induction bytes generalizing c with
  | nil => exact Nat.le_refl _
  | cons byte bytes ih =>
      have hfirst : c.ep4.overruns ≤ (c.usbComTxSendByte byte).ep4.overruns :=
        Nat.le_trans (overruns_le_write c.ep4 byte) (write_overruns_le hn byte)
      exact Nat.le_trans hfirst (ih (Com.usbComTxSendByte_of_nil hn byte).1)

/-- Without the host, a byte takes up one byte of the FIFO. -/
theorem Lossless.fill_usbComTxSendByte (h : Lossless c sent) (hn : c.hostReads = [])
    (hroom : fill c.ep4 < 128) (byte : UInt8) :
    fill (c.usbComTxSendByte byte).ep4 = fill c.ep4 + 1 := by
  have hw : c.ep4.waiting.length < 2 := by
    unfold fill at hroom
    omega
  have hwrite := EndpointIn.write_of_free hw byte
  have hlen : (c.ep4.write byte).loaded.length = c.ep4.loaded.length + 1 := by
    rw [hwrite, List.length_append, List.length_singleton]
  have hwait : (c.ep4.write byte).waiting = c.ep4.waiting := by rw [hwrite]
  rw [(Com.usbComTxSendByte_of_nil hn byte).2]
  by_cases hfull : c.device.vars.inFifoBytesLoaded + 1 = Com.cdcInPacketSize
  · have h63 : c.device.vars.inFifoBytesLoaded = 63 := by
      rw [← UInt8.add_left_inj 1, hfull]
      rfl
    have hl : 63 = c.ep4.loaded.length := by
      rw [← h.loaded, h63]
      rfl
    rw [if_pos hfull, EndpointIn.commit_of_free (by rw [hwait]; exact hw)]
    unfold fill
    dsimp only
    rw [List.length_append, List.length_singleton, List.length_nil, hwait]
    omega
  · rw [if_neg hfull]
    unfold fill
    rw [hlen, hwait]
    omega

theorem Lossless.overflow {bytes : List UInt8} (h : Lossless c sent) (hn : c.hostReads = [])
    (hover : 128 < bytes.length + fill c.ep4) :
    0 < (bytes.foldl Com.usbComTxSendByte c).ep4.overruns := by
  induction bytes generalizing c sent with
  | nil =>
      have hf := h.fits
      rw [List.length_nil] at hover
      omega
  | cons byte bytes ih =>
      have hn' := (Com.usbComTxSendByte_of_nil hn byte).1
      rw [List.length_cons] at hover
      by_cases hroom : fill c.ep4 < 128
      · have hfill := h.fill_usbComTxSendByte hn hroom byte
        exact ih (h.usbComTxSendByte hroom byte).1 hn' (by omega)
      · have hlt := h.lt
        have h2 : 2 ≤ c.ep4.waiting.length := by
          unfold fill at hroom
          omega
        have hwrite : (c.ep4.write byte).overruns = c.ep4.overruns + 1 := by
          rw [EndpointIn.write, if_pos ((inpktRdy_iff _).mpr h2)]
        have hfirst := write_overruns_le hn byte
        have hrest : _ ≤ (bytes.foldl Com.usbComTxSendByte _).ep4.overruns :=
          overruns_le_sendBytes hn'
        rw [List.foldl_cons]
        omega

/-! ### Runs -/

def Action.reads : Action → List (List HostRead)
  | .hostRead _ => []
  | .txAvailable reads | .txSend _ reads | .txSendByte _ reads | .service _ _ reads => reads

namespace Station

variable {serial : ℕ → UInt8} {s t : Station} {a : Action}

def Documented (serial : ℕ → UInt8) (s : Station) (a : Action) : Prop :=
  s.StaysConfigured serial a ∧ a.bytes.length ≤ s.promised

/-- The FIFO has room for the bytes that are sent. -/
def Fits (s : Station) (a : Action) : Prop := a.bytes.length ≤ s.com.ep4.room

def SendRule (serial : ℕ → UInt8) (s : Station) (a : Action) : Prop :=
  s.Documented serial a ∧ s.Fits a

instance (s : Station) (a : Action) : Decidable (s.Documented serial a) :=
  inferInstanceAs (Decidable (_ ∧ _))

instance (s : Station) (a : Action) : Decidable (s.SendRule serial a) :=
  inferInstanceAs (Decidable ((_ ∧ _) ∧ _ ≤ _))

theorem fits_iff (h : Lossless s.com s.sent) :
    s.Fits a ↔ a.bytes.length + fill s.com.ep4 ≤ 128 := by
  have hf := h.fits
  unfold Fits EndpointIn.room
  unfold fill at hf ⊢
  omega

theorem lossless_step (h : Lossless s.com s.sent) (hrule : s.SendRule serial a)
    (he : s.step serial a = some t) : Lossless t.com t.sent := by
  have hfits := (fits_iff h).mp hrule.2
  cases a with
  | hostRead read =>
      obtain rfl := Option.some.inj he
      exact h.idle (Com.idle_hostRead _ _)
  | txAvailable reads =>
      obtain rfl := Option.some.inj he
      exact ((h.idle (Com.idle_schedule s.com reads)).usbComTxAvailable).1
  | txSend buffer reads =>
      obtain ⟨d, hd, rfl⟩ := Option.map_eq_some_iff.mp he
      obtain ⟨e, he, hl, -⟩ := (h.idle (Com.idle_schedule s.com reads)).usbComTxSend hfits
      obtain rfl := Option.some.inj (hd.symm.trans he)
      exact hl
  | txSendByte byte reads =>
      obtain rfl := Option.some.inj he
      have hroom : fill s.com.ep4 < 128 := by
        change 1 + _ ≤ 128 at hfits
        omega
      exact ((h.idle (Com.idle_schedule s.com reads)).usbComTxSendByte hroom byte).1
  | service readings now reads =>
      obtain ⟨d, hd, rfl⟩ := Option.map_eq_some_iff.mp he
      exact ((h.idle (Com.idle_schedule s.com reads)).usbComService hrule.1.1.2.2 hd).1

/-- Bytes that do not fit are lost, unless the host reads a packet while they are sent. -/
theorem overrun_of_not_fits (h : Lossless s.com s.sent) (hreads : a.reads = [])
    (hf : ¬ s.Fits a) : ∃ t, s.step serial a = some t ∧ 0 < t.com.ep4.overruns := by
  have hover : 128 < a.bytes.length + fill s.com.ep4 := by
    rw [fits_iff h] at hf
    omega
  have hi := h.idle (Com.idle_schedule s.com [])
  have hroom := h.fits
  have hempty (hb : a.bytes = []) : ∃ t, s.step serial a = some t ∧ 0 < t.com.ep4.overruns := by
    rw [hb, List.length_nil] at hover
    omega
  cases a with
  | hostRead read => exact hempty rfl
  | txAvailable reads => exact hempty rfl
  | txSend buffer reads =>
      obtain rfl : reads = [] := hreads
      have hlt : (s.com.schedule []).device.vars.inFifoBytesLoaded.toNat < 64 := by
        rw [hi.loaded]
        exact hi.lt
      have hlost := hi.overflow (Eq.refl []) hover
      refine ⟨s.afterSend (buffer.foldl Com.usbComTxSendByte (s.com.schedule [])) buffer, ?_, hlost⟩
      rw [Station.step, Com.usbComTxSend_eq buffer hlt]
      rfl
  | txSendByte byte reads =>
      obtain rfl : reads = [] := hreads
      have hlost := hi.overflow (Eq.refl []) hover
      exact ⟨s.afterSend ((s.com.schedule []).usbComTxSendByte byte) [byte], rfl, hlost⟩
  | service readings now reads => exact hempty rfl

/-- If the FIFO has room for the bytes of each call that sends, no byte is lost. A call that sends
more loses a byte, unless the host reads a packet meanwhile. -/
theorem sends_that_fit_lose_nothing (serial : ℕ → UInt8) (c : Com) (s : Station) (hc : Fresh c)
    (hr : Run (step serial) (SendRule serial) (start c) s) :
    (s.com.ep4.overruns = 0 ∧ s.com.ep4.committed.flatten ++ s.com.ep4.loaded = s.sent) ∧
    ∀ a, a.reads = [] → ¬ s.Fits a → ∃ t, s.step serial a = some t ∧ 0 < t.com.ep4.overruns := by
  have h : Lossless s.com s.sent :=
    hr.invariant (invariant_start hc).lossless fun _ _ _ h hrule he => lossless_step h hrule he
  exact ⟨⟨h.overruns, h.bytes⟩, fun _ hreads hf => overrun_of_not_fits h hreads hf⟩

/-- A short packet is committed between two calls that send, and the second fits. -/
theorem sends_around_service_lose_nothing :
    ∃ s, Run (step fun _ => 0) (SendRule fun _ => 0) (start configured) s ∧
      s.com.ep4.committed = [[1], List.replicate 64 7] ∧ s.com.ep4.overruns = 0 ∧
      s.sent = 1 :: List.replicate 64 7 := by
  have hrun : (exec (step fun _ => 0) (SendRule fun _ => 0) (start configured)
      [.txAvailable [], .txSendByte 1 [], .service (.packet 0x00 []) 0 [],
        .txSend (List.replicate 64 7) []]).map
      (fun s => (s.com.ep4.committed, s.com.ep4.loaded)) =
      some ([[1], List.replicate 64 7], []) := by
    decide +kernel
  obtain ⟨s, hr, hs⟩ := exists_run_of_exec hrun
  obtain ⟨hcommitted, hloaded⟩ := Prod.mk.inj hs
  obtain ⟨⟨hover, hsent⟩, -⟩ :=
    sends_that_fit_lose_nothing (fun _ => 0) configured s fresh_configured hr
  rw [hcommitted, hloaded] at hsent
  exact ⟨s, hr, hcommitted, hover, hsent.symm⟩

/-- Of 128 bytes that are allowed three are sent, with a call of usbComService() after each of the
first two. -/
theorem third_byte_lost :
    ¬ ∀ s, Run (step fun _ => 0) (Documented fun _ => 0) (start configured) s →
      s.com.ep4.overruns = 0 ∧ s.com.ep4.committed.flatten ++ s.com.ep4.loaded = s.sent := by
  intro h
  have hrun : (exec (step fun _ => 0) (Documented fun _ => 0) (start configured)
      [.txAvailable [], .txSendByte 1 [], .service (.packet 0x00 []) 0 [],
        .txSendByte 2 [], .service (.packet 0x00 []) 0 [], .txSendByte 3 []]).map
      (fun s => s.com.ep4.overruns) = some 1 := by
    decide +kernel
  obtain ⟨s, hr, hs⟩ := exists_run_of_exec hrun
  have hover := (h s hr).1
  rw [hs] at hover
  cases hover

end Station
end WixelSdk.UsbCom
