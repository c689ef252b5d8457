import WixelSdk.UsbHid
import WixelSdk.UsbPoll

/-!
# usbPoll and the input reports

A class driver spares an object of the XDATA memory if no callback writes to it and no control write
is ever directed to it. Then a call of `usbPoll` leaves the object as it is. The HID library spares
its three input reports: only the keyboard's output report is written by the host.
-/

namespace WixelSdk.Usb

variable {ρ δ : Type*} {S : Set (Object ρ)} {r : Readings} {u v w : Device ρ δ}

/-- The objects in `S` are the same, and no data is awaited for one of them. -/
structure Device.Spares (S : Set (Object ρ)) (u v : Device ρ δ) : Prop where
  xdata : ∀ o ∈ S, v.xdata o = u.xdata o
  target : v.controlTransferState = .write → v.controlTransferBytesLeft ≠ 0 →
    v.controlTransferPointer.object ∉ S

/-- The callbacks are called while no control transfer is going on. -/
structure ClassDriver.Spares (D : ClassDriver ρ δ) (S : Set (Object ρ)) : Prop where
  response : Object.response ∉ S
  setupHandler : ∀ (r : Readings) (u : Device ρ δ), u.controlTransferState = .none →
    u.Spares S (D.usbCallbackSetupHandler r u)
  classDescriptorHandler : ∀ (r : Readings) (u : Device ρ δ), u.controlTransferState = .none →
    u.Spares S (D.usbCallbackClassDescriptorHandler r u)
  initEndpoints : ∀ r u, (D.usbCallbackInitEndpoints r u).xdata = u.xdata
  controlWriteHandler : ∀ r u, (D.usbCallbackControlWriteHandler r u).xdata = u.xdata

namespace Device.Spares

theorem trans_xdata (h : v.Spares S w) (hx : ∀ o ∈ S, v.xdata o = u.xdata o) : u.Spares S w where
  xdata := fun o ho => (h.xdata o ho).trans (hx o ho)
  target := h.target

theorem of_ne_write (hx : ∀ o ∈ S, v.xdata o = u.xdata o) (hs : v.controlTransferState ≠ .write) :
    u.Spares S v := ⟨hx, fun hw => absurd hw hs⟩

theorem of_none (hn : u.controlTransferState = .none) : u.Spares S u :=
  .of_ne_write (fun _ _ => rfl) (by rw [hn]; nofun)

theorem of_acknowledge (hx : ∀ o ∈ S, v.xdata o = u.xdata o) :
    u.Spares S v.usbControlAcknowledge := ⟨hx, fun _ h => absurd rfl h⟩

theorem of_read (hx : ∀ o ∈ S, v.xdata o = u.xdata o) (n : ℕ) (p : Pointer ρ) :
    u.Spares S (v.usbControlRead n p) := .of_ne_write hx nofun

end Device.Spares

namespace ClassDriver.Spares

variable {D : ClassDriver ρ δ}

open Device

theorem getDescriptor (h : D.Spares S) (hn : u.controlTransferState = .none) :
    u.Spares S (u.getDescriptor D r) := by
  have hread : ∀ w : Device ρ δ, (∀ o ∈ S, w.xdata o = u.xdata o) → u.Spares S w.readDescriptor :=
    fun w hx => .of_ne_write hx nofun
  have hclass := h.classDescriptorHandler r u hn
  unfold Device.getDescriptor
  dsimp only
  split_ifs
  · exact hread _ fun _ _ => rfl
  · exact .of_none hn
  · exact hread _ fun _ _ => rfl
  · exact .of_none hn
  · exact hread _ fun _ _ => rfl
  · exact hclass
  · exact hread _ hclass.xdata

theorem setConfiguration (h : D.Spares S) (hn : u.controlTransferState = .none) :
    u.Spares S (u.setConfiguration D r) := by
  unfold Device.setConfiguration
  by_cases hzero : u.usbSetupPacket.wValue = 0
  · rw [if_pos hzero]
    exact .of_acknowledge fun _ _ => rfl
  · rw [if_neg hzero]
    split_ifs
    · exact .of_acknowledge fun o _ => congrFun (h.initEndpoints r _) o
    · exact .of_none hn

variable [DecidableEq ρ]

theorem setResponse (h : D.Spares S) (r0 r1 : UInt8) (u : Device ρ δ) :
    ∀ o ∈ S, (u.setResponse r0 r1).xdata o = u.xdata o := by
  intro o ho
  have hne : o ≠ .response := fun heq => h.response (heq ▸ ho)
  exact Function.update_of_ne hne _ _

omit [DecidableEq ρ] in
theorem getInterface (hn : u.controlTransferState = .none) :
    u.Spares S (u.getInterface D) := by
  unfold Device.getInterface
  split_ifs
  · exact .of_none hn
  · exact .of_none hn
  · exact .of_read (fun _ _ => rfl) 1 _

theorem getStatus (h : D.Spares S) (hn : u.controlTransferState = .none) :
    u.Spares S (u.getStatus D r) := by
  unfold Device.getStatus
  dsimp only
  by_cases hdevice : u.usbSetupPacket.recipient = 0
  · rw [if_pos hdevice]
    exact .of_read (h.setResponse _ 0 u) 2 _
  · rw [if_neg hdevice]
    split_ifs
    · exact .of_none hn
    · exact .of_none hn
    · exact .of_read (fun _ _ => rfl) 2 _
    · exact .of_none hn
    · exact .of_none hn
    · exact .of_read (fun _ _ => rfl) 2 _
    · exact .of_none hn

theorem usbStandardDeviceRequestHandler (h : D.Spares S) (hn : u.controlTransferState = .none) :
    u.Spares S (u.usbStandardDeviceRequestHandler D r) := by
  have hset := h.setResponse 0 0 u
  unfold Device.usbStandardDeviceRequestHandler
  dsimp only
  cases StandardRequest.ofByte? (u.setResponse 0 0).usbSetupPacket.bRequest with
  | none => exact (Device.Spares.of_none (u := u.setResponse 0 0) hn).trans_xdata hset
  | some request =>
      cases request with
      | getDescriptor => exact (h.getDescriptor (u := u.setResponse 0 0) hn).trans_xdata hset
      | setConfiguration => exact (h.setConfiguration (u := u.setResponse 0 0) hn).trans_xdata hset
      | getInterface => exact (getInterface (u := u.setResponse 0 0) hn).trans_xdata hset
      | getStatus => exact (h.getStatus (u := u.setResponse 0 0) hn).trans_xdata hset
      | setAddress => exact .of_acknowledge hset
      | getConfiguration =>
          refine .of_read (fun o ho => ?_) 1 _
          exact (h.setResponse _ 0 (u.setResponse 0 0) o ho).trans (hset o ho)
      | setFeature => exact .of_acknowledge hset
      | clearFeature => exact .of_acknowledge hset
      | synchFrame => exact .of_read hset 2 _

/-- What the callback for a SETUP packet leaves behind. -/
theorem handleSetup (h : D.Spares S) (hn : u.controlTransferState = .none) :
    u.Spares S (u.handleSetup D r) := by
  unfold Device.handleSetup
  by_cases htype : u.usbSetupPacket.requestType = 0
  · rw [if_pos htype]
    have hs := h.usbStandardDeviceRequestHandler (r := r) hn
    exact ⟨hs.xdata, hs.target⟩
  · rw [if_neg htype]
    have hs := h.setupHandler r u hn
    exact ⟨hs.xdata, hs.target⟩

omit [DecidableEq ρ] in
theorem answerSetup (h : u.Spares S v) : u.Spares S v.answerSetup.1 := by
  unfold Device.answerSetup
  cases hs : v.controlTransferState with
  | none => exact h
  | write =>
      dsimp only
      split_ifs
      · exact h
      · exact .of_ne_write h.xdata nofun
  | read => exact h

omit [DecidableEq ρ] in
theorem inPacket (h : u.Spares S v) : u.Spares S (v.inPacket D r).1 := by
  by_cases hread : v.controlTransferState = .read
  · have hx : (v.inPacket D r).1.xdata = v.xdata := by rw [Device.inPacket_eq]
    refine .of_ne_write (fun o ho => hx ▸ h.xdata o ho) ?_
    unfold Device.inPacket
    split_ifs
    · dsimp only
      split_ifs <;> nofun
    · rw [hread]
      nofun
  · rw [Device.inPacket_of_ne_read hread]
    exact h

theorem usbReadFifo_of_ne (bytes : List UInt8) {p : Pointer ρ} {o : Object ρ} (ho : o ≠ p.object)
    (v : Device ρ δ) : (usbReadFifo D bytes p v).xdata o = v.xdata o := by
  induction bytes generalizing p v with
  | nil => rfl
  | cons byte bytes ih =>
      have hstore : (v.store D p byte).xdata o = v.xdata o := by
        unfold Device.store
        split_ifs
        · rfl
        · exact Function.update_of_ne ho _ _
      exact (ih (p := p.add 1) ho (v.store D p byte)).trans hstore

/-- The bytes of a data packet go where they are awaited. -/
theorem receiveData (hv : v.Spares S v) (hw : v.controlTransferState = .write) :
    v.Spares S (v.receiveData D r) where
  xdata := by
    intro o ho
    change (usbReadFifo D ((List.range (v.bytesReceived r)).map r.fifo) v.controlTransferPointer
      v).xdata o = v.xdata o
    by_cases hleft : v.controlTransferBytesLeft = 0
    · have hzero : v.bytesReceived r = 0 := by rw [Device.bytesReceived, hleft, Nat.min_zero]
      rw [hzero]
      rfl
    · exact usbReadFifo_of_ne _ (fun heq => hv.target hw hleft (heq ▸ ho)) v
  target := by
    rw [Device.receiveData_eq]
    intro _ hleft
    exact hv.target hw fun hzero => hleft (by dsimp only; rw [hzero, Nat.zero_sub])

theorem dataPacket (h : D.Spares S) (hv : v.Spares S v) (hw : v.controlTransferState = .write) :
    v.Spares S (v.dataPacket D r).1 := by
  have hreceive := receiveData (D := D) (r := r) hv hw
  unfold Device.dataPacket
  dsimp only
  split_ifs
  · exact hreceive
  · obtain ⟨value, -, hfinish⟩ := Device.finishWrite_eq D r (v.receiveData D r)
    rw [hfinish]
    refine .of_ne_write (fun o ho => ?_) nofun
    dsimp only
    split_ifs
    · exact (congrFun (h.controlWriteHandler r _) o).trans (hreceive.xdata o ho)
    · exact hreceive.xdata o ho

theorem setupPacket (h : D.Spares S) (v : Device ρ δ) : v.Spares S (v.setupPacket D r).1 := by
  have hs := h.handleSetup (r := r) (u := (v.takeSetup r).1) rfl
  exact answerSetup ⟨hs.xdata, hs.target⟩

theorem outPacket (h : D.Spares S) (hv : v.Spares S v) : v.Spares S (v.outPacket D r).1 := by
  unfold Device.outPacket
  split_ifs with hrdy hw
  · exact h.dataPacket hv hw
  · exact h.setupPacket v
  · exact hv
  · exact hv

/-- A call of `usbPoll` does not touch what the driver spares. -/
theorem usbPoll (h : D.Spares S) (hu : u.Spares S u) : u.Spares S (u.usbPoll D r).1 := by
  by_cases he : r.ep0 = true
  · have hready : u.Spares S (u.ready r) := by
      refine ⟨fun o _ => by rw [Device.ready_xdata], fun hw hleft => ?_⟩
      rw [Device.ready_controlTransferState] at hw
      rw [Device.ready_bytesLeft] at hleft
      rw [Device.ready_pointer]
      split_ifs at hw
      exact hu.target hw hleft
    rw [Device.usbPoll_ep0 r u D he, Ep0.andThen_fst, Ep0.andThen_fst]
    have hout := h.outPacket (r := r) (v := u.ready r) ⟨fun _ _ => rfl, hready.target⟩
    exact inPacket (hout.trans_xdata hready.xdata)
  · obtain ⟨state, suspend, hpoll⟩ := Device.usbPoll_not_ep0 r u D (Bool.eq_false_iff.mpr he)
    rw [hpoll]
    refine ⟨fun _ _ => rfl, fun hw hleft => ?_⟩
    dsimp only at hw hleft
    split_ifs at hw
    exact hu.target hw hleft

end ClassDriver.Spares
end WixelSdk.Usb

namespace WixelSdk.UsbHid
open Usb

/-- usbHidKeyboardInput, usbHidMouseInput and usbHidJoystickInput. -/
def inputs : Set (Object HidObject) :=
  {.driver .usbHidKeyboardInput, .driver .usbHidMouseInput, .driver .usbHidJoystickInput}

theorem spares_readResponse (value : UInt8) (u : Hid) : u.Spares inputs (readResponse value u) := by
  refine .of_ne_write (fun o ho => ?_) nofun
  have hne : o ≠ .driver .response := by
    rintro rfl
    rcases ho with h | h | h <;> cases h
  exact Function.update_of_ne hne _ _

theorem usbHid_spares (serial : ℕ → UInt8) : (usbHid serial).Spares inputs where
  response := fun h => by rcases h with h | h | h <;> cases h
  setupHandler := by
    intro r u hn
    change u.Spares inputs (usbCallbackSetupHandler r u)
    unfold usbCallbackSetupHandler
    split_ifs
    · cases HidRequest.ofByte? u.usbSetupPacket.bRequest with
      | none => exact .of_none hn
      | some request =>
          cases request with
          | getReport =>
              dsimp only
              unfold getReport
              split_ifs
              · exact .of_none hn
              · cases inputReport? u.usbSetupPacket.wIndex with
                | none => exact .of_none hn
                | some report => exact .of_read (fun _ _ => rfl) _ _
          | getIdle =>
              dsimp only
              unfold getIdle
              split_ifs
              · exact spares_readResponse _ u
              · exact .of_none hn
          | getProtocol =>
              dsimp only
              unfold getProtocol
              split_ifs
              · exact spares_readResponse _ u
              · exact spares_readResponse _ u
              · exact .of_none hn
          | setReport =>
              dsimp only
              unfold setReport
              split_ifs
              · refine ⟨fun _ _ => rfl, fun _ _ h => ?_⟩
                rcases h with h | h | h <;> cases h
              · exact .of_none hn
          | setIdle =>
              dsimp only
              unfold setIdle
              split_ifs
              · exact .of_acknowledge fun _ _ => rfl
              · exact .of_none hn
          | setProtocol =>
              dsimp only
              unfold setProtocol
              dsimp only
              split_ifs
              · exact .of_acknowledge fun _ _ => rfl
              · exact .of_acknowledge fun _ _ => rfl
              · exact .of_none hn
    · exact .of_none hn
  classDescriptorHandler := by
    intro r u hn
    change u.Spares inputs (usbCallbackClassDescriptorHandler r u)
    unfold usbCallbackClassDescriptorHandler
    dsimp only
    split_ifs
    · exact .of_none hn
    · exact .of_read (fun _ _ => rfl) 9 _
    · exact .of_none hn
    · cases reportDescriptor? u.usbSetupPacket.wIndex with
      | none => exact .of_none hn
      | some descriptor => exact .of_read (fun _ _ => rfl) _ _
    · exact .of_none hn
  initEndpoints := fun _ _ => rfl
  controlWriteHandler := fun _ _ => rfl

end WixelSdk.UsbHid
