import WixelSdk.UsbCdcAcm
import WixelSdk.UsbPoll

/-!
# usbPoll with the callbacks of CDC ACM

What a call of `usbPoll` does to the line coding, to the variables of the data endpoint and to a
control write. Only the data stage of SET_LINE_CODING writes to usbComLineCoding.
-/

namespace WixelSdk.UsbCdcAcm
open Usb

variable (serial : ℕ → UInt8) {r : Readings} {u v w : Cdc}

/-- The line coding and the variables of the data endpoint are the same. -/
structure Keeps (u v : Cdc) : Prop where
  lineCoding : v.xdata (.driver .usbComLineCoding) = u.xdata (.driver .usbComLineCoding)
  lineCodingChanges : v.vars.lineCodingChanges = u.vars.lineCodingChanges
  sendEmptyPacketSoon : v.vars.sendEmptyPacketSoon = u.vars.sendEmptyPacketSoon
  inFifoBytesLoaded : v.vars.inFifoBytesLoaded = u.vars.inFifoBytesLoaded

namespace Keeps

theorem of_eq (hx : v.xdata = u.xdata) (hv : v.vars = u.vars) : Keeps u v := by
  constructor <;> simp only [hx, hv]

theorem refl (u : Cdc) : Keeps u u := of_eq rfl rfl

theorem trans (h : Keeps u v) (h' : Keeps v w) : Keeps u w where
  lineCoding := h'.lineCoding.trans h.lineCoding
  lineCodingChanges := h'.lineCodingChanges.trans h.lineCodingChanges
  sendEmptyPacketSoon := h'.sendEmptyPacketSoon.trans h.sendEmptyPacketSoon
  inFifoBytesLoaded := h'.inFifoBytesLoaded.trans h.inFifoBytesLoaded

end Keeps

/-! ### SETUP packets -/

def setLineCodingRequest (p : SetupPacket) : Prop :=
  addressed p ∧ AcmRequest.ofByte? p.bRequest = some .setLineCoding

instance (p : SetupPacket) : Decidable (setLineCodingRequest p) :=
  inferInstanceAs (Decidable (_ ∧ _))

theorem requestType_of_addressed {p : SetupPacket} (h : addressed p) : p.requestType ≠ 0 := by
  have hall : ∀ n < 256, UInt8.ofNat n &&& 0x7F = 0x21 → UInt8.ofNat n >>> 5 &&& 3 ≠ 0 := by
    decide +kernel
  have hp := hall p.bmRequestType.toNat p.bmRequestType.toNat_lt
  rw [UInt8.ofNat_toNat] at hp
  exact hp h.1

def AwaitsData (u : Cdc) : Prop :=
  u.controlTransferState = .write ∧ u.controlTransferBytesLeft ≠ 0

theorem not_awaitsData_acknowledge : ¬ AwaitsData u.usbControlAcknowledge := fun h => h.2 rfl

theorem not_awaitsData_read {n : ℕ} {source : Pointer CdcObject} :
    ¬ AwaitsData (u.usbControlRead n source) := fun h => by cases h.1

theorem not_awaitsData_none (hn : u.controlTransferState = .none) : ¬ AwaitsData u := by
  rintro ⟨hw, -⟩
  rw [hn] at hw
  cases hw

theorem getDescriptor_spec (hn : u.controlTransferState = .none) :
    Keeps u (u.getDescriptor (usbCdcAcm serial) r) ∧
      ¬ AwaitsData (u.getDescriptor (usbCdcAcm serial) r) := by
  have hread : ∀ w : Cdc, ¬ AwaitsData w.readDescriptor := fun w h => by cases h.1
  unfold Device.getDescriptor
  dsimp only
  split_ifs
  · exact ⟨.of_eq rfl rfl, hread _⟩
  · exact ⟨.refl u, not_awaitsData_none hn⟩
  · exact ⟨.of_eq rfl rfl, hread _⟩
  · exact ⟨.refl u, not_awaitsData_none hn⟩
  · exact ⟨.of_eq rfl rfl, hread _⟩
  · exact ⟨.refl u, not_awaitsData_none hn⟩
  · exact ⟨.of_eq rfl rfl, hread _⟩

theorem setConfiguration_spec (hn : u.controlTransferState = .none) :
    Keeps u (u.setConfiguration (usbCdcAcm serial) r) ∧
      ¬ AwaitsData (u.setConfiguration (usbCdcAcm serial) r) := by
  unfold Device.setConfiguration
  by_cases h0 : u.usbSetupPacket.wValue = 0
  · rw [if_pos h0]
    exact ⟨.of_eq rfl rfl, not_awaitsData_acknowledge⟩
  · rw [if_neg h0]
    split_ifs
    · exact ⟨⟨rfl, rfl, rfl, rfl⟩, not_awaitsData_acknowledge⟩
    · exact ⟨.refl u, not_awaitsData_none hn⟩

theorem getInterface_spec (hn : u.controlTransferState = .none) :
    Keeps u (u.getInterface (usbCdcAcm serial)) ∧
      ¬ AwaitsData (u.getInterface (usbCdcAcm serial)) := by
  unfold Device.getInterface
  split_ifs
  · exact ⟨.refl u, not_awaitsData_none hn⟩
  · exact ⟨.refl u, not_awaitsData_none hn⟩
  · exact ⟨.of_eq rfl rfl, not_awaitsData_read⟩

theorem keeps_setResponse (r0 r1 : UInt8) : Keeps u (u.setResponse r0 r1) := ⟨rfl, rfl, rfl, rfl⟩

theorem getStatus_spec (hn : u.controlTransferState = .none) :
    Keeps u (u.getStatus (usbCdcAcm serial) r) ∧
      ¬ AwaitsData (u.getStatus (usbCdcAcm serial) r) := by
  have hstall := not_awaitsData_none hn
  unfold Device.getStatus
  dsimp only
  by_cases h0 : u.usbSetupPacket.recipient = 0
  · rw [if_pos h0]
    exact ⟨⟨rfl, rfl, rfl, rfl⟩, not_awaitsData_read⟩
  · rw [if_neg h0]
    split_ifs
    · exact ⟨.refl u, hstall⟩
    · exact ⟨.refl u, hstall⟩
    · exact ⟨.of_eq rfl rfl, not_awaitsData_read⟩
    · exact ⟨.refl u, hstall⟩
    · exact ⟨.refl u, hstall⟩
    · exact ⟨.of_eq rfl rfl, not_awaitsData_read⟩
    · exact ⟨.refl u, hstall⟩

/-- No standard request has a data stage. -/
theorem usbStandardDeviceRequestHandler_spec (hn : u.controlTransferState = .none) :
    Keeps u (u.usbStandardDeviceRequestHandler (usbCdcAcm serial) r) ∧
      ¬ AwaitsData (u.usbStandardDeviceRequestHandler (usbCdcAcm serial) r) := by
  have hset : Keeps u (u.setResponse 0 0) := keeps_setResponse 0 0
  unfold Device.usbStandardDeviceRequestHandler
  dsimp only
  cases StandardRequest.ofByte? (u.setResponse 0 0).usbSetupPacket.bRequest with
  | none => exact ⟨hset, not_awaitsData_none hn⟩
  | some request =>
      cases request with
      | getDescriptor =>
          obtain ⟨hk, ha⟩ := getDescriptor_spec serial (r := r) (u := u.setResponse 0 0) hn
          exact ⟨hset.trans hk, ha⟩
      | setConfiguration =>
          obtain ⟨hk, ha⟩ := setConfiguration_spec serial (r := r)
            (u := u.setResponse 0 0) hn
          exact ⟨hset.trans hk, ha⟩
      | getInterface =>
          obtain ⟨hk, ha⟩ := getInterface_spec serial (u := u.setResponse 0 0) hn
          exact ⟨hset.trans hk, ha⟩
      | getStatus =>
          obtain ⟨hk, ha⟩ := getStatus_spec serial (r := r) (u := u.setResponse 0 0) hn
          exact ⟨hset.trans hk, ha⟩
      | setAddress => exact ⟨hset.trans (.of_eq rfl rfl), not_awaitsData_acknowledge⟩
      | getConfiguration => exact ⟨⟨rfl, rfl, rfl, rfl⟩, not_awaitsData_read⟩
      | setFeature => exact ⟨hset.trans (.of_eq rfl rfl), not_awaitsData_acknowledge⟩
      | clearFeature => exact ⟨hset.trans (.of_eq rfl rfl), not_awaitsData_acknowledge⟩
      | synchFrame => exact ⟨hset.trans (.of_eq rfl rfl), not_awaitsData_read⟩

/-- Of the class requests, only SET_LINE_CODING has a data stage. -/
theorem usbCallbackSetupHandler_spec (hn : u.controlTransferState = .none) :
    Keeps u (usbCallbackSetupHandler r u) ∧
    (setLineCodingRequest u.usbSetupPacket →
      usbCallbackSetupHandler r u = u.usbControlWrite sizeofLineCoding usbComLineCoding) ∧
    (¬ setLineCodingRequest u.usbSetupPacket → ¬ AwaitsData (usbCallbackSetupHandler r u)) := by
  unfold usbCallbackSetupHandler setLineCodingRequest
  by_cases ha : addressed u.usbSetupPacket
  · rw [if_pos ha]
    cases AcmRequest.ofByte? u.usbSetupPacket.bRequest with
    | none => exact ⟨.refl u, fun h => by simp at h, fun _ => not_awaitsData_none hn⟩
    | some request =>
        cases request with
        | setLineCoding => exact ⟨.of_eq rfl rfl, fun _ => rfl, fun h => absurd ⟨ha, rfl⟩ h⟩
        | getLineCoding =>
            exact ⟨.of_eq rfl rfl, fun h => by simp at h, fun _ => not_awaitsData_read⟩
        | setControlLineState =>
            exact ⟨⟨rfl, rfl, rfl, rfl⟩, fun h => by simp at h,
              fun _ => not_awaitsData_acknowledge⟩
  · rw [if_neg ha]
    exact ⟨.refl u, fun h => absurd h.1 ha, fun _ => not_awaitsData_none hn⟩

/-- A data stage of SET_LINE_CODING that has received `k` bytes. -/
structure InStage (u : Cdc) (k : ℕ) : Prop where
  state : u.controlTransferState = .write
  bytesLeft : u.controlTransferBytesLeft + k = 7
  lt : k < 7
  pointer : u.controlTransferPointer = ⟨.driver .usbComLineCoding, k⟩
  requestType : u.usbSetupPacket.requestType ≠ 0

theorem handled_spec (r : Readings) (u : Cdc) :
    Keeps u (u.handled (usbCdcAcm serial) r) ∧
    (setLineCodingRequest (.ofFifo r.fifo) → InStage (u.handled (usbCdcAcm serial) r) 0) ∧
    (¬ setLineCodingRequest (.ofFifo r.fifo) →
      ¬ AwaitsData (u.handled (usbCdcAcm serial) r)) := by
  have hready : Keeps u ((u.ready r).takeSetup r).1 :=
    .of_eq (Device.ready_xdata r u) (Device.ready_vars r u)
  unfold Device.handled Device.handleSetup
  by_cases htype : ((u.ready r).takeSetup r).1.usbSetupPacket.requestType = 0
  · rw [if_pos htype]
    obtain ⟨hk, ha⟩ := usbStandardDeviceRequestHandler_spec serial (r := r)
      (u := ((u.ready r).takeSetup r).1) rfl
    refine ⟨hready.trans (hk.trans (.of_eq rfl rfl)), fun hset => ?_, fun _ => ha⟩
    exact absurd htype (requestType_of_addressed hset.1)
  · rw [if_neg htype]
    obtain ⟨hk, hset, ha⟩ := usbCallbackSetupHandler_spec (r := r)
      (u := ((u.ready r).takeSetup r).1) rfl
    refine ⟨hready.trans (hk.trans (.of_eq rfl rfl)), fun h => ?_, ha⟩
    have hw : (usbCdcAcm serial).usbCallbackSetupHandler r ((u.ready r).takeSetup r).1 =
        ((u.ready r).takeSetup r).1.usbControlWrite sizeofLineCoding usbComLineCoding := hset h
    rw [hw]
    exact ⟨rfl, rfl, by decide, rfl, htype⟩

theorem answerSetup_spec (u : Cdc) : Keeps u u.answerSetup.1 ∧
    (AwaitsData u → u.answerSetup.1 = u) ∧
    (¬ AwaitsData u → u.answerSetup.1.controlTransferState ≠ .write) := by
  by_cases hr : u.controlTransferState = .read
  · rw [Device.answerSetup_of_read hr]
    exact ⟨.refl u, fun _ => rfl, fun _ hw => by cases hr.symm.trans hw⟩
  · obtain ⟨value, -, ha⟩ := Device.answerSetup_of_ne_read hr
    rw [ha]
    unfold AwaitsData
    refine ⟨.of_eq rfl rfl, fun hwait => ?_, fun hwait => ?_⟩
    · rw [if_pos hwait, ← hwait.1]
    · rw [if_neg hwait]
      nofun

theorem inPacket_spec {D : ClassDriver CdcObject Vars} (u : Cdc) : Keeps u (u.inPacket D r).1 ∧
    (u.controlTransferState = .write → (u.inPacket D r).1 = u) ∧
    (u.controlTransferState ≠ .write → (u.inPacket D r).1.controlTransferState ≠ .write) := by
  refine ⟨?_, fun hw => ?_, fun hw => ?_⟩
  · rw [Device.inPacket_eq]
    exact .of_eq rfl rfl
  · have hn : ¬ (r.inpktRdy = false ∧ u.controlTransferState = .read) := by
      rw [hw]
      simp
    exact congrArg Prod.fst (if_neg hn)
  · unfold Device.inPacket
    split_ifs
    · dsimp only
      split_ifs
      · nofun
      · nofun
    · exact hw

/-- A call that takes a SETUP packet. -/
theorem usbPoll_setup (hs : u.takesSetup r = true) :
    Keeps u (u.usbPoll (usbCdcAcm serial) r).1 ∧
    (setLineCodingRequest (.ofFifo r.fifo) → InStage (u.usbPoll (usbCdcAcm serial) r).1 0) ∧
    (¬ setLineCodingRequest (.ofFifo r.fifo) →
      (u.usbPoll (usbCdcAcm serial) r).1.controlTransferState ≠ .write) := by
  rw [Device.usbPoll_takesSetup _ hs, Ep0.andThen_fst, Ep0.andThen_fst]
  obtain ⟨hk, hset, hno⟩ := handled_spec serial r u
  generalize u.handled (usbCdcAcm serial) r = v at hk hset hno ⊢
  obtain ⟨hka, hwait, hdone⟩ := answerSetup_spec v
  obtain ⟨hki, hwrite, hother⟩ := inPacket_spec (r := r) (D := usbCdcAcm serial) v.answerSetup.1
  refine ⟨hk.trans (hka.trans hki), fun h => ?_, fun h => hother (hdone (hno h))⟩
  have hv := hset h
  have hl : v.controlTransferBytesLeft ≠ 0 := by have := hv.bytesLeft; omega
  have ha : v.answerSetup.1 = v := hwait ⟨hv.state, hl⟩
  rw [hwrite (by rw [ha]; exact hv.state), ha]
  exact hv

/-! ### Data packets -/

def taken (r : Readings) (k : ℕ) : ℕ := min r.usbcnt0.toNat (7 - k)

theorem keeps_usbCallbackControlWriteHandler (r : Readings) (u : Cdc) :
    (usbCallbackControlWriteHandler r u).xdata = u.xdata ∧
    (usbCallbackControlWriteHandler r u).vars.lineCodingChanges = u.vars.lineCodingChanges + 1 ∧
    (usbCallbackControlWriteHandler r u).vars.sendEmptyPacketSoon = u.vars.sendEmptyPacketSoon ∧
    (usbCallbackControlWriteHandler r u).vars.inFifoBytesLoaded = u.vars.inFifoBytesLoaded := by
  unfold usbCallbackControlWriteHandler
  dsimp only
  split_ifs
  · exact ⟨rfl, rfl, rfl, rfl⟩
  · exact ⟨rfl, rfl, rfl, rfl⟩

/-- A call that takes a data packet: either the stage goes on or it is complete. -/
theorem usbPoll_data_eq (hd : u.takesData r = true) :
    let v := (u.ready r).receiveData (usbCdcAcm serial) r
    (v.controlTransferBytesLeft ≠ 0 → (u.usbPoll (usbCdcAcm serial) r).1 = v) ∧
    (v.controlTransferBytesLeft = 0 → ∃ w : Cdc,
      w = (if v.usbSetupPacket.requestType ≠ 0 then usbCallbackControlWriteHandler r v else v) ∧
      (u.usbPoll (usbCdcAcm serial) r).1 =
        { w with usbindex := 0, controlTransferState := .none }) := by
  intro v
  have hv : v.controlTransferState = .write := by
    have heq : v = (u.ready r).receiveData (usbCdcAcm serial) r := rfl
    rw [heq, Device.receiveData_eq]
    exact (Device.takesData_iff.mp hd).2
  rw [Device.usbPoll_takesData _ hd, Ep0.andThen_fst, Ep0.andThen_fst]
  refine ⟨fun hl => ?_, fun hl => ?_⟩
  · have hdata : (u.ready r).dataPacket (usbCdcAcm serial) r = v.writeUsbcs0 0x40 := if_pos hl
    rw [hdata]
    exact (inPacket_spec v).2.1 hv
  · have hdata : (u.ready r).dataPacket (usbCdcAcm serial) r = v.finishWrite (usbCdcAcm serial) r :=
      if_neg (not_not.mpr hl)
    obtain ⟨value, -, hf⟩ := Device.finishWrite_eq (usbCdcAcm serial) r v
    refine ⟨_, rfl, ?_⟩
    rw [hdata, hf, Device.inPacket_of_ne_read (by simp)]
    rfl

theorem receiveData_stage (hd : u.takesData r = true) {k : ℕ} (hs : InStage u k) :
    let v := (u.ready r).receiveData (usbCdcAcm serial) r
    (∀ o i, v.xdata o i = if o = .driver .usbComLineCoding ∧ k ≤ i ∧ i < k + taken r k then
      r.fifo (i - k) else u.xdata o i) ∧
    v.vars = u.vars ∧ v.controlTransferState = .write ∧
    v.controlTransferBytesLeft + (k + taken r k) = 7 ∧
    v.controlTransferPointer = ⟨.driver .usbComLineCoding, k + taken r k⟩ ∧
    v.usbSetupPacket.requestType ≠ 0 := by
  intro v
  have hleft := hs.bytesLeft
  have hn : (u.ready r).bytesReceived r = taken r k := by
    rw [Device.bytesReceived, Device.ready_bytesLeft, taken, Nat.eq_sub_of_add_eq hleft]
  have heq : v = (u.ready r).receiveData (usbCdcAcm serial) r := rfl
  have hle : taken r k ≤ 7 - k := Nat.min_le_right _ _
  rw [heq, Device.receiveData_eq, hn, Device.ready_pointer, Device.ready_bytesLeft, hs.pointer]
  refine ⟨fun o i => ?_, Device.ready_vars r u, (Device.takesData_iff.mp hd).2, ?_, rfl, ?_⟩
  · have hx := Device.usbReadFifo_xdata (usbCdcAcm serial) (o := .driver .usbComLineCoding) rfl
      ((List.range (taken r k)).map r.fifo) k (u.ready r) o i
    rw [List.length_map, List.length_range, Device.ready_xdata] at hx
    have hread : ((u.ready r).receiveData (usbCdcAcm serial) r).xdata o i =
        (Device.usbReadFifo (usbCdcAcm serial) ((List.range (taken r k)).map r.fifo)
          ⟨.driver .usbComLineCoding, k⟩ (u.ready r)).xdata o i := by
      rw [Device.receiveData, hn, Device.ready_pointer, hs.pointer]
    rw [hread, hx]
    by_cases hin : o = .driver .usbComLineCoding ∧ k ≤ i ∧ i < k + taken r k
    · have hlt : i - k < taken r k := by omega
      rw [if_pos hin, if_pos hin, List.getD_eq_getElem?_getD, List.getElem?_map,
        List.getElem?_range hlt]
      rfl
    · rw [if_neg hin, if_neg hin]
  · dsimp only
    have hlt := hs.lt
    omega
  · dsimp only
    rw [Device.ready_usbSetupPacket]
    exact hs.requestType

theorem usbPoll_data (hd : u.takesData r = true) {k : ℕ} (hs : InStage u k) :
    let x := (u.usbPoll (usbCdcAcm serial) r).1
    (∀ o i, x.xdata o i = if o = .driver .usbComLineCoding ∧ k ≤ i ∧ i < k + taken r k then
      r.fifo (i - k) else u.xdata o i) ∧
    (k + taken r k < 7 → InStage x (k + taken r k) ∧
      x.vars.lineCodingChanges = u.vars.lineCodingChanges) ∧
    (k + taken r k = 7 → x.controlTransferState ≠ .write ∧
      x.vars.lineCodingChanges = u.vars.lineCodingChanges + 1) := by
  intro x
  obtain ⟨hmem, hvars, hstate, hleft, hptr, htype⟩ := receiveData_stage serial hd hs
  obtain ⟨hgo, hdone⟩ := usbPoll_data_eq serial hd
  generalize (u.ready r).receiveData (usbCdcAcm serial) r = v at *
  by_cases hl : v.controlTransferBytesLeft = 0
  · obtain ⟨w, hw, hx⟩ := hdone hl
    rw [if_pos htype] at hw
    obtain ⟨hkx, hkc, -, -⟩ := keeps_usbCallbackControlWriteHandler r v
    have hxeq : x = { w with usbindex := 0, controlTransferState := .none } := hx
    rw [hxeq, hw]
    refine ⟨fun o i => ?_, fun hlt => by omega, fun _ => ⟨nofun, ?_⟩⟩
    · dsimp only
      rw [hkx]
      exact hmem o i
    · dsimp only
      rw [hkc, hvars]
  · have hxeq : x = v := hgo hl
    rw [hxeq]
    refine ⟨hmem, fun hlt => ⟨⟨hstate, hleft, hlt, hptr, htype⟩, ?_⟩, fun h7 => by omega⟩
    rw [hvars]

/-! ### Other calls -/

/-- A bus reset, SETUP_END or SENT_STALL is seen. -/
def abortsStage (r : Readings) : Bool :=
  r.usbPowerPresent && (r.rstif || r.ep0if && (r.setupEnd || r.sentStall))

theorem abortsStage_of_ep0 (he : r.ep0 = true) : abortsStage r = r.aborts := by
  obtain ⟨hp, hf⟩ := Bool.and_eq_true_iff.mp he
  simp only [abortsStage, Readings.aborts, hp, hf, Bool.true_and, Bool.or_assoc]

theorem abortsStage_of_not_ep0 (he : r.ep0 = false) :
    abortsStage r = (r.usbPowerPresent && r.rstif) := by
  unfold Readings.ep0 at he
  unfold abortsStage
  cases hp : r.usbPowerPresent
  · rfl
  · rw [hp, Bool.true_and] at he
    rw [he, Bool.false_and, Bool.or_false]

theorem usbPoll_other (hd : u.takesData r = false) (hs : u.takesSetup r = false) :
    let x := (u.usbPoll (usbCdcAcm serial) r).1
    Keeps u x ∧
    (∀ k, InStage u k → abortsStage r = false → InStage x k) ∧
    (u.controlTransferState ≠ .write ∨ abortsStage r = true → x.controlTransferState ≠ .write) := by
  intro x
  cases he : r.ep0 with
  | false =>
      obtain ⟨state, suspend, hp⟩ := Device.usbPoll_not_ep0 r u (usbCdcAcm serial) he
      rw [← abortsStage_of_not_ep0 he] at hp
      have hx : x = _ := congrArg Prod.fst hp
      rw [hx]
      refine ⟨.of_eq rfl rfl, fun k hk ha => ?_, fun h => ?_⟩
      · rw [ha]
        exact ⟨hk.state, hk.bytesLeft, hk.lt, hk.pointer, hk.requestType⟩
      · dsimp only
        by_cases ha : abortsStage r = true
        · rw [if_pos ha]
          nofun
        · rw [if_neg ha]
          exact h.resolve_right ha
  | true =>
      have hstate := Device.ready_controlTransferState r u
      rw [← abortsStage_of_ep0 he] at hstate
      have hx : x = ((u.ready r).inPacket (usbCdcAcm serial) r).1 := by
        have hpoll := Device.usbPoll_dropped (usbCdcAcm serial) he hd hs
        exact (congrArg Prod.fst hpoll).trans (Ep0.andThen_fst _ _)
      have hready : Keeps u (u.ready r) := .of_eq (Device.ready_xdata r u) (Device.ready_vars r u)
      obtain ⟨hk, hwrite, hother⟩ := inPacket_spec (r := r) (D := usbCdcAcm serial) (u.ready r)
      rw [hx]
      refine ⟨hready.trans hk, fun k hk ha => ?_, fun h => hother ?_⟩
      · have hw : (u.ready r).controlTransferState = .write := by
          rw [hstate, ha]
          exact hk.state
        rw [hwrite hw]
        refine ⟨hw, ?_, hk.lt, ?_, ?_⟩
        · rw [Device.ready_bytesLeft]
          exact hk.bytesLeft
        · rw [Device.ready_pointer]
          exact hk.pointer
        · rw [Device.ready_usbSetupPacket]
          exact hk.requestType
      · rw [hstate]
        by_cases ha : abortsStage r = true
        · rw [if_pos ha]
          nofun
        · rw [if_neg ha]
          exact h.resolve_right ha

/-- No callback touches the variables of the data endpoint or the serial state; the callback that
initializes the endpoints sets lastReportedSerialState to 0xFF. -/
theorem respects_tx : (usbCdcAcm serial).Respects fun v w =>
    w.sendEmptyPacketSoon = v.sendEmptyPacketSoon ∧ w.inFifoBytesLoaded = v.inFifoBytesLoaded ∧
    w.usbComSerialState = v.usbComSerialState ∧
    (w.lastReportedSerialState = v.lastReportedSerialState ∨ w.lastReportedSerialState = 0xFF) where
  refl _ := ⟨rfl, rfl, rfl, .inl rfl⟩
  setupHandler r u := by
    dsimp only [usbCdcAcm]
    unfold usbCallbackSetupHandler
    by_cases ha : addressed u.usbSetupPacket
    · rw [if_pos ha]
      cases AcmRequest.ofByte? u.usbSetupPacket.bRequest with
      | none => exact ⟨rfl, rfl, rfl, .inl rfl⟩
      | some request => cases request <;> exact ⟨rfl, rfl, rfl, .inl rfl⟩
    · rw [if_neg ha]
      exact ⟨rfl, rfl, rfl, .inl rfl⟩
  classDescriptorHandler _ _ := ⟨rfl, rfl, rfl, .inl rfl⟩
  initEndpoints _ _ := ⟨rfl, rfl, rfl, .inr rfl⟩
  controlWriteHandler r u := by
    dsimp only [usbCdcAcm]
    unfold usbCallbackControlWriteHandler
    dsimp only
    split_ifs <;> exact ⟨rfl, rfl, rfl, .inl rfl⟩

/-- No call of usbPoll touches the variables of the data endpoint. -/
theorem usbPoll_tx (r : Readings) (u : Cdc) :
    (u.usbPoll (usbCdcAcm serial) r).1.vars.sendEmptyPacketSoon = u.vars.sendEmptyPacketSoon ∧
    (u.usbPoll (usbCdcAcm serial) r).1.vars.inFifoBytesLoaded = u.vars.inFifoBytesLoaded := by
  obtain ⟨hempty, hloaded, -⟩ := (respects_tx serial).usbPoll r u
  exact ⟨hempty, hloaded⟩

end WixelSdk.UsbCdcAcm
