import WixelSdk.UsbControlRead
import WixelSdk.UsbReply

/-!
# How much data a control read sends

GET_DESCRIPTOR limits its reply to wLength, the other requests send their whole reply. So the device
sends more than the host has requested exactly for the requests with a fixed reply that is longer
than wLength.
-/

namespace WixelSdk.Usb

variable {ρ δ : Type*} {T : ReplyTable} {D : ClassDriver ρ δ} {u : Device ρ δ} {r : Readings}

namespace Device

theorem written_answerSetup : written u.answerSetup.2 = [] ∧
    ∀ e ∈ u.answerSetup.2, e.isSetup = false := by
  by_cases hr : u.controlTransferState = .read
  · rw [answerSetup_of_read hr]
    exact ⟨rfl, fun _ he => by cases he⟩
  · obtain ⟨value, -, ha⟩ := answerSetup_of_ne_read hr
    rw [ha]
    refine ⟨rfl, fun e he => ?_⟩
    rw [List.mem_singleton.mp he]
    rfl

theorem answerSetup_ne_read (hn : u.controlTransferState ≠ .read) :
    u.answerSetup.1.controlTransferState ≠ .read := by
  obtain ⟨value, -, ha⟩ := answerSetup_of_ne_read hn
  rw [ha]
  dsimp only
  split_ifs
  · nofun
  · nofun

variable [DecidableEq ρ]

/-- A SETUP packet that starts no control read makes the device send no data. -/
theorem written_of_not_read (hs : u.takesSetup r = true)
    (hn : (u.handled D r).controlTransferState ≠ .read) (rs : List Readings) :
    written (transferLog (polls D (r :: rs) u).2) = [] := by
  have hne := answerSetup_ne_read hn
  obtain ⟨hw, hset⟩ := written_answerSetup (u := u.handled D r)
  have hlog : (polls D (r :: rs) u).2 = flagLog r ++ .setup (.ofFifo r.fifo) ::
      ((u.handled D r).answerSetup.2 ++ (polls D rs (u.handled D r).answerSetup.1).2) := by
    have hsplit : polls D (r :: rs) u = (u.usbPoll D r).andThen (polls D rs) := rfl
    rw [hsplit, usbPoll_takesSetup D hs]
    simp only [Ep0.andThen_snd, Ep0.andThen_fst, inPacket_of_ne_read hne, List.append_nil,
      List.append_assoc, List.cons_append, List.nil_append]
  rw [hlog, transferLog_cons (isSetup_of_isIdle (flagLog_idle r)), untilSetup_append hset,
    written_append, hw, written_idle (polls_ended rs hne).log]
  rfl

theorem inReady_packet : (Readings.packet 0x00 []).inReady = true ∧
    (Readings.packet 0x00 []).interrupts = false := by
  decide +kernel

/-- If the host reads on, the device sends all of the reply. -/
theorem exists_written_of_read (hs : u.takesSetup r = true)
    (hread : (u.handled D r).controlTransferState = .read) : ∃ rs : List Readings,
      (written (transferLog (polls D (r :: rs) u).2)).length =
        (u.handled D r).controlTransferBytesLeft := by
  obtain ⟨hready, hquiet⟩ := inReady_packet
  refine ⟨List.replicate (u.handled D r).controlTransferBytesLeft (.packet 0x00 []), ?_⟩
  have hsend := written_of_read hs hread
    (List.replicate (u.handled D r).controlTransferBytesLeft (.packet 0x00 []))
  have hall : (List.replicate (u.handled D r).controlTransferBytesLeft
      (Readings.packet 0x00 [])).takeWhile (fun q => !q.interrupts) =
        List.replicate (u.handled D r).controlTransferBytesLeft (.packet 0x00 []) := by
    apply List.takeWhile_eq_self_iff.mpr
    intro q hq
    rw [List.eq_of_mem_replicate hq, hquiet]
    rfl
  rw [hsend, hall, List.length_take, length_bytesAt, List.countP_cons, List.countP_replicate,
    if_pos hready]
  omega

end Device

namespace ReplyTable.Describes

variable [DecidableEq ρ]

/-- The device sends at most wLength bytes, however the host goes on, unless the request has a fixed
reply that is longer. -/
theorem sent_le_iff (h : T.Describes D) (r : Readings) (u : Device ρ δ)
    (hs : u.takesSetup r = true) :
    (∀ rs : List Readings, (written (transferLog (Device.polls D (r :: rs) u).2)).length ≤
      (SetupPacket.ofFifo r.fifo).wLength.toNat) ↔
    ∀ n, T.fixedReply? (u.ready r).usbDeviceState (.ofFifo r.fifo) = some n →
      n ≤ (SetupPacket.ofFifo r.fifo).wLength.toNat := by
  obtain ⟨hdesc, hfixed⟩ := h.handled r u
  constructor
  · intro hall n hn
    have hd : T.descriptor (.ofFifo r.fifo) = false := by
      cases hd : T.descriptor (.ofFifo r.fifo) with
      | false => rfl
      | true =>
          rw [fixedReply?_of_descriptor _ _ hd] at hn
          cases hn
    have hans := hfixed hd
    rw [hn] at hans
    obtain ⟨rs, hrs⟩ := Device.exists_written_of_read hs hans.1
    have hle := hall rs
    rwa [hrs, hans.2] at hle
  · intro hle rs
    by_cases hread : (u.handled D r).controlTransferState = .read
    · have hbytes : (u.handled D r).controlTransferBytesLeft ≤
          (SetupPacket.ofFifo r.fifo).wLength.toNat := by
        cases hd : T.descriptor (.ofFifo r.fifo) with
        | true => exact (hdesc hd).2
        | false =>
            have hans := hfixed hd
            cases hn : T.fixedReply? (u.ready r).usbDeviceState (.ofFifo r.fifo) with
            | none =>
                rw [hn] at hans
                exact absurd hread hans
            | some n =>
                rw [hn] at hans
                rw [hans.2]
                exact hle n hn
      rw [Device.written_of_read hs hread rs, List.length_take, Device.length_bytesAt]
      omega
    · rw [Device.written_of_not_read hs hread]
      exact Nat.zero_le _

end ReplyTable.Describes

/-- A control read sends at most wLength bytes, unless the request has a fixed reply that is
longer. -/
theorem sent_within_wLength_iff (serial : ℕ → UInt8) :
    (∀ (r : Readings) (u : UsbCdcAcm.Cdc), u.takesSetup r = true →
      ((∀ rs : List Readings, (written (transferLog
          (Device.polls (UsbCdcAcm.usbCdcAcm serial) (r :: rs) u).2)).length ≤
        (SetupPacket.ofFifo r.fifo).wLength.toNat) ↔
      ∀ n, UsbCdcAcm.replyTable.fixedReply? (u.ready r).usbDeviceState (.ofFifo r.fifo) = some n →
        n ≤ (SetupPacket.ofFifo r.fifo).wLength.toNat)) ∧
    (∀ (r : Readings) (u : UsbHid.Hid), u.takesSetup r = true →
      ((∀ rs : List Readings, (written (transferLog
          (Device.polls (UsbHid.usbHid serial) (r :: rs) u).2)).length ≤
        (SetupPacket.ofFifo r.fifo).wLength.toNat) ↔
      ∀ n, UsbHid.replyTable.fixedReply? (u.ready r).usbDeviceState (.ofFifo r.fifo) = some n →
        n ≤ (SetupPacket.ofFifo r.fifo).wLength.toNat)) :=
  ⟨(UsbCdcAcm.describes serial).sent_le_iff, (UsbHid.describes serial).sent_le_iff⟩

/-- GET_LINE_CODING with a wLength of 7. -/
theorem sent_within_wLength_getLineCoding :
    (written (transferLog (Device.polls (UsbCdcAcm.usbCdcAcm fun _ => 0)
      [.packet 0x01 [0xA1, 0x21, 0, 0, 0, 0, 7, 0], .packet 0x00 []] UsbCdcAcm.init).2)).length ≤
      (SetupPacket.ofFifo
        (Readings.packet 0x01 [0xA1, 0x21, 0, 0, 0, 0, 7, 0]).fifo).wLength.toNat := by
  have hfixed : ∀ n, UsbCdcAcm.replyTable.fixedReply?
      (UsbCdcAcm.init.ready (.packet 0x01 [0xA1, 0x21, 0, 0, 0, 0, 7, 0])).usbDeviceState
      (.ofFifo (Readings.packet 0x01 [0xA1, 0x21, 0, 0, 0, 0, 7, 0]).fifo) = some n →
      n ≤ (SetupPacket.ofFifo
        (Readings.packet 0x01 [0xA1, 0x21, 0, 0, 0, 0, 7, 0]).fifo).wLength.toNat := by
    intro n hn
    have hseven : some 7 = some n := Eq.trans (by decide +kernel) hn
    obtain rfl := Option.some.inj hseven
    decide +kernel
  exact ((sent_within_wLength_iff fun _ => 0).1 _ _ (by decide +kernel)).mpr hfixed
    [.packet 0x00 []]

/-- GET_LINE_CODING with a wLength of 1 sends 7 bytes. -/
theorem sent_beyond_wLength_getLineCoding :
    ¬ ∀ (r : Readings) (u : UsbCdcAcm.Cdc), u.takesSetup r = true → ∀ rs : List Readings,
      (written (transferLog
          (Device.polls (UsbCdcAcm.usbCdcAcm fun _ => 0) (r :: rs) u).2)).length ≤
        (SetupPacket.ofFifo r.fifo).wLength.toNat := by
  intro h
  have hsent := h (.packet 0x01 [0xA1, 0x21, 0, 0, 0, 0, 1, 0]) UsbCdcAcm.init (by decide +kernel)
    [.packet 0x00 []]
  revert hsent
  decide +kernel

end WixelSdk.Usb
