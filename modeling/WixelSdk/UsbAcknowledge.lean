import WixelSdk.UsbControlRead
import WixelSdk.UsbReply

/-!
# Which calls of usbPoll clear OUTPKT_RDY

The comment in `usbPoll` requires every path that has seen OUTPKT_RDY to write a 1 to bit 6 of USBCS0.
The paths for data packets, for stalls, for control writes and for unexpected packets do; the path
for a SETUP packet that starts a control read does not.
-/

namespace WixelSdk.Usb

/-- A write to USBCS0 that clears OUTPKT_RDY. -/
def Ep0Event.clearsOutpktRdy : Ep0Event → Bool
  | .usbcs0 usbindex value => decide (usbindex = 0) && bit value 6
  | _ => false

def Acknowledged (log : List Ep0Event) : Prop := ∃ e ∈ log, e.clearsOutpktRdy = true

instance (log : List Ep0Event) : Decidable (Acknowledged log) :=
  inferInstanceAs (Decidable (∃ e ∈ log, _))

section Logs

variable {log es : List Ep0Event}

theorem acknowledged_append : Acknowledged (log ++ es) ↔ Acknowledged log ∨ Acknowledged es := by
  simp only [Acknowledged, List.mem_append, or_and_right, exists_or]

theorem acknowledged_write {value : UInt8} (h : bit value 6 = true) :
    Acknowledged [.usbcs0 0 value] := ⟨_, List.mem_singleton_self _, h⟩

theorem not_acknowledged_flagLog (r : Readings) : ¬ Acknowledged (Device.flagLog r) := by
  unfold Device.flagLog
  cases r.setupEnd <;> cases r.sentStall <;> decide

theorem not_acknowledged_setup (p : SetupPacket) : ¬ Acknowledged [.setup p] := by
  rintro ⟨e, he, hc⟩
  rw [List.mem_singleton.mp he] at hc
  cases hc

end Logs

namespace Device

variable {ρ δ : Type*} {D : ClassDriver ρ δ} {u : Device ρ δ} {r : Readings}

theorem not_acknowledged_inPacket : ¬ Acknowledged (u.inPacket D r).2 := by
  rintro ⟨e, he, hc⟩
  unfold inPacket at he
  split_ifs at he
  · rcases List.mem_append.mp he with he | he
    · obtain ⟨byte, -, rfl⟩ := List.mem_map.mp he
      cases hc
    · rw [List.mem_singleton.mp he] at hc
      have hlow := (Bool.and_eq_true_iff.mp hc).2
      split_ifs at hlow <;> cases hlow
  · cases he

theorem acknowledged_answerSetup (hi : u.usbindex = 0) :
    Acknowledged u.answerSetup.2 ↔ u.controlTransferState ≠ .read := by
  by_cases hr : u.controlTransferState = .read
  · rw [answerSetup_of_read hr]
    exact iff_of_false (fun ⟨_, he, _⟩ => List.not_mem_nil he) fun hne => hne hr
  · obtain ⟨value, hv, ha⟩ := answerSetup_of_ne_read hr
    rw [ha, hi]
    rcases hv with rfl | rfl | rfl
    · exact iff_of_true (acknowledged_write rfl) hr
    · exact iff_of_true (acknowledged_write rfl) hr
    · exact iff_of_true (acknowledged_write rfl) hr

variable [DecidableEq ρ]

theorem acknowledged_dataPacket (hi : u.usbindex = 0) : Acknowledged (u.dataPacket D r).2 := by
  unfold dataPacket
  dsimp only
  split_ifs
  · rw [receiveData_eq, writeUsbcs0, hi]
    exact acknowledged_write rfl
  · obtain ⟨value, hv, hf⟩ := finishWrite_eq D r (u.receiveData D r)
    rw [hf]
    rcases hv with rfl | rfl
    · exact acknowledged_write rfl
    · exact acknowledged_write rfl

/-- For any class driver. -/
theorem acknowledged_usbPoll_iff (hout : r.out = true) : Acknowledged (u.usbPoll D r).2 ↔
    ¬ (u.takesSetup r = true ∧ (u.handled D r).controlTransferState = .read) := by
  cases hs : u.takesSetup r with
  | true =>
      rw [usbPoll_takesSetup D hs]
      simp only [Ep0.andThen_snd, acknowledged_append, not_acknowledged_flagLog,
        not_acknowledged_setup, not_acknowledged_inPacket, or_false, false_or, true_and]
      exact acknowledged_answerSetup handled_usbindex
  | false =>
      refine iff_of_true ?_ (by simp)
      cases hd : u.takesData r with
      | true =>
          rw [usbPoll_takesData D hd]
          simp only [Ep0.andThen_snd, acknowledged_append]
          exact Or.inl (Or.inr (acknowledged_dataPacket (ready_usbindex r u)))
      | false =>
          have hrdy : r.outpktRdy = true := (Bool.and_eq_true_iff.mp hout).2
          rw [usbPoll_dropped D (out_eq_true hout) hd hs, if_pos hrdy]
          simp only [Ep0.andThen_snd, acknowledged_append]
          exact Or.inl (Or.inr (acknowledged_write rfl))

end Device

variable {ρ δ : Type*} [DecidableEq ρ] {T : ReplyTable} {D : ClassDriver ρ δ}

theorem ReplyTable.Describes.acknowledged_iff (h : T.Describes D) (r : Readings) (u : Device ρ δ)
    (hout : r.out = true) : Acknowledged (u.usbPoll D r).2 ↔
      ¬ (u.takesSetup r = true ∧
        T.startsRead (u.ready r).usbDeviceState (.ofFifo r.fifo) = true) := by
  rw [Device.acknowledged_usbPoll_iff hout, h.handled_read_iff]

/-- Of the calls that see OUTPKT_RDY, all clear it but those that take a SETUP packet for a control
read. -/
theorem outpktRdy_cleared_iff (serial : ℕ → UInt8) :
    (∀ (r : Readings) (u : UsbCdcAcm.Cdc), r.out = true →
      (Acknowledged (u.usbPoll (UsbCdcAcm.usbCdcAcm serial) r).2 ↔
        ¬ (u.takesSetup r = true ∧
          UsbCdcAcm.replyTable.startsRead (u.ready r).usbDeviceState (.ofFifo r.fifo) = true))) ∧
    (∀ (r : Readings) (u : UsbHid.Hid), r.out = true →
      (Acknowledged (u.usbPoll (UsbHid.usbHid serial) r).2 ↔
        ¬ (u.takesSetup r = true ∧
          UsbHid.replyTable.startsRead (u.ready r).usbDeviceState (.ofFifo r.fifo) = true))) :=
  ⟨(UsbCdcAcm.describes serial).acknowledged_iff, (UsbHid.describes serial).acknowledged_iff⟩

/-- A SET_LINE_CODING request is acknowledged. -/
theorem outpktRdy_cleared_setLineCoding :
    Acknowledged (UsbCdcAcm.init.usbPoll (UsbCdcAcm.usbCdcAcm fun _ => 0)
      (.packet 0x01 [0x21, 0x20, 0, 0, 0, 0, 7, 0])).2 :=
  ((outpktRdy_cleared_iff fun _ => 0).1 _ _ (by decide +kernel)).mpr (by decide +kernel)

/-- A request for the device descriptor is not. -/
theorem outpktRdy_kept_getDescriptor :
    ¬ ∀ (r : Readings) (u : UsbCdcAcm.Cdc), r.out = true →
      Acknowledged (u.usbPoll (UsbCdcAcm.usbCdcAcm fun _ => 0) r).2 := by
  intro h
  have hget := h (.packet 0x01 [0x80, 6, 0, 1, 0, 0, 18, 0]) UsbCdcAcm.init (by decide +kernel)
  revert hget
  decide +kernel

end WixelSdk.Usb
