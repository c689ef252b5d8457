import WixelSdk.Usb
import Mathlib.Tactic.SplitIfs

/-!
# What one call of usbPoll does

A call that does not look at endpoint 0 leaves the control transfer alone, a bus reset apart. One
that does goes through three stages: `ready` is the device once the bus events and the flags
SETUP_END and SENT_STALL are handled, `outPacket` takes the packet of the host and `inPacket` sends
one.
-/

namespace WixelSdk.Usb

namespace Readings

variable (r : Readings)

def ep0 : Bool := r.usbPowerPresent && r.ep0if

/-- The control transfer is ended before the packet of the host is looked at. -/
def aborts : Bool := r.rstif || r.setupEnd || r.sentStall

def out : Bool := r.ep0 && r.outpktRdy

/-- Endpoint 0 shows the given USBCS0 and an OUT packet. -/
def packet (usbcs0 : UInt8) (bytes : List UInt8) : Readings where
  usbPowerPresent := true
  vinPowerPresent := false
  usbcif := 0
  usbiif := 1
  usbcs0 := usbcs0
  usbcnt0 := UInt8.ofNat bytes.length
  fifo := fun i => bytes.getD i 0
  getMs := 0

end Readings

namespace Device

variable {ρ δ : Type*} (r : Readings) (u : Device ρ δ)

theorem busEvents_eq : u.busEvents r = { u with
    usbDeviceState := (u.busEvents r).usbDeviceState
    usbSuspendMode := (u.busEvents r).usbSuspendMode
    controlTransferState := if r.rstif then .none else u.controlTransferState } := by
  unfold busEvents resumeEvent resetEvent suspendEvent attach
  split_ifs <;> rfl

/-- The device when OUTPKT_RDY is looked at. -/
def ready : Device ρ δ := ((u.busEvents r).flags r).1

def flagLog : List Ep0Event :=
  (if r.setupEnd then [.usbcs0 0 0x80] else []) ++ (if r.sentStall then [.usbcs0 0 0x00] else [])

theorem flags_eq (v : Device ρ δ) : v.flags r = ({ v with
    usbindex := 0
    controlTransferState := if r.setupEnd || r.sentStall then .none
      else v.controlTransferState }, flagLog r) := by
  unfold flags endTransfer stallSent flagLog
  cases r.setupEnd <;> cases r.sentStall <;> rfl

theorem ready_eq : u.ready r = { u with
    usbDeviceState := (u.busEvents r).usbDeviceState
    usbSuspendMode := (u.busEvents r).usbSuspendMode
    usbindex := 0
    controlTransferState := if r.aborts then .none else u.controlTransferState } := by
  unfold ready Readings.aborts
  rw [flags_eq, busEvents_eq]
  cases r.rstif <;> cases r.setupEnd <;> cases r.sentStall <;> rfl

@[simp] theorem ready_usbindex : (u.ready r).usbindex = 0 := by rw [ready_eq]

@[simp] theorem ready_bytesLeft :
    (u.ready r).controlTransferBytesLeft = u.controlTransferBytesLeft := by rw [ready_eq]

@[simp] theorem ready_pointer :
    (u.ready r).controlTransferPointer = u.controlTransferPointer := by rw [ready_eq]

@[simp] theorem ready_xdata : (u.ready r).xdata = u.xdata := by rw [ready_eq]

@[simp] theorem ready_vars : (u.ready r).vars = u.vars := by rw [ready_eq]

@[simp] theorem ready_usbSetupPacket : (u.ready r).usbSetupPacket = u.usbSetupPacket := by
  rw [ready_eq]

theorem ready_controlTransferState : (u.ready r).controlTransferState =
    if r.aborts then .none else u.controlTransferState := by rw [ready_eq]

/-! ### The packet of the host -/

def takesData : Bool := r.out && decide ((u.ready r).controlTransferState = .write)

def takesSetup : Bool :=
  r.out && decide ((u.ready r).controlTransferState ≠ .write) && decide (r.usbcnt0 = 8)

variable {r u} in
theorem takesData_iff : u.takesData r = true ↔
    r.out = true ∧ (u.ready r).controlTransferState = .write := by
  simp [takesData]

variable {r u} in
theorem takesSetup_iff : u.takesSetup r = true ↔
    r.out = true ∧ (u.ready r).controlTransferState ≠ .write ∧ r.usbcnt0 = 8 := by
  simp [takesSetup, and_assoc]

variable {r u} in
theorem takesSetup_eq (he : r.ep0 = true) (hs : (u.ready r).controlTransferState ≠ .write) :
    u.takesSetup r = (r.outpktRdy && decide (r.usbcnt0 = 8)) := by
  simp [takesSetup, Readings.out, he, hs]

variable {r u} in
theorem takesData_eq_false (hs : (u.ready r).controlTransferState ≠ .write) :
    u.takesData r = false := by
  simp [takesData, hs]

/-- The device after the callback for the SETUP packet. -/
def handled [DecidableEq ρ] (D : ClassDriver ρ δ) (r : Readings) (u : Device ρ δ) : Device ρ δ :=
  ((u.ready r).takeSetup r).1.handleSetup D r

variable [DecidableEq ρ] (D : ClassDriver ρ δ)

theorem usbPoll_ep0 (h : r.ep0 = true) : u.usbPoll D r =
    (Ep0.andThen (u.ready r, flagLog r) fun v => v.outPacket D r).andThen
      fun v => v.inPacket D r := by
  obtain ⟨hp, he⟩ := Bool.and_eq_true_iff.mp h
  have hlog : ((u.busEvents r).flags r).2 = flagLog r := by rw [flags_eq]
  have hf : (u.busEvents r).flags r = (u.ready r, flagLog r) := Prod.ext rfl hlog
  rw [usbPoll, if_pos hp, if_pos he, endpoint0, hf]

/-- Without endpoint 0, only a bus reset touches the control transfer. -/
theorem usbPoll_not_ep0 (h : r.ep0 = false) : ∃ state suspend, u.usbPoll D r = ({ u with
    usbDeviceState := state
    usbSuspendMode := suspend
    controlTransferState := if r.usbPowerPresent && r.rstif then .none
      else u.controlTransferState }, []) := by
  unfold usbPoll
  by_cases hp : r.usbPowerPresent = true
  · have he : ¬ r.ep0if = true := fun he => by simp [Readings.ep0, hp, he] at h
    rw [if_pos hp, if_neg he, busEvents_eq, hp, Bool.true_and]
    exact ⟨_, _, rfl⟩
  · rw [if_neg hp, Bool.eq_false_iff.mpr hp, Bool.false_and]
    exact ⟨.detached, false, rfl⟩


variable {r u}

theorem outPacket_of_takesSetup (h : u.takesSetup r = true) :
    (u.ready r).outPacket D r = (u.ready r).setupPacket D r := by
  obtain ⟨ho, hs, hc⟩ := takesSetup_iff.mp h
  rw [outPacket, if_pos (Bool.and_eq_true_iff.mp ho).2, if_neg hs, if_pos hc]

theorem outPacket_of_takesData (h : u.takesData r = true) :
    (u.ready r).outPacket D r = (u.ready r).dataPacket D r := by
  obtain ⟨ho, hs⟩ := takesData_iff.mp h
  rw [outPacket, if_pos (Bool.and_eq_true_iff.mp ho).2, if_pos hs]

/-- A packet that is neither data nor SETUP is acknowledged and dropped. -/
theorem outPacket_of_dropped (he : r.ep0 = true) (hd : u.takesData r = false)
    (hs : u.takesSetup r = false) : (u.ready r).outPacket D r =
      (u.ready r, if r.outpktRdy then [.usbcs0 0 0x40] else []) := by
  unfold outPacket
  by_cases ho : r.outpktRdy = true
  · have hout : r.out = true := Bool.and_eq_true_iff.mpr ⟨he, ho⟩
    have hw : (u.ready r).controlTransferState ≠ .write :=
      fun hw => Bool.eq_false_iff.mp hd (takesData_iff.mpr ⟨hout, hw⟩)
    have hc : r.usbcnt0 ≠ 8 :=
      fun hc => Bool.eq_false_iff.mp hs (takesSetup_iff.mpr ⟨hout, hw, hc⟩)
    rw [if_pos ho, if_neg hw, if_neg hc, if_pos ho, writeUsbcs0, ready_usbindex]
  · rw [if_neg ho, if_neg ho]

/-! ### Data packets -/

theorem store_eq (p : Pointer ρ) (byte : UInt8) :
    u.store D p byte = { u with xdata := (u.store D p byte).xdata } := by
  unfold store
  split_ifs <;> rfl

theorem usbReadFifo_eq (bytes : List UInt8) (p : Pointer ρ) (v : Device ρ δ) :
    usbReadFifo D bytes p v = { v with xdata := (usbReadFifo D bytes p v).xdata } := by
  induction bytes generalizing p v with
  | nil => rfl
  | cons byte bytes ih =>
      rw [usbReadFifo, ih, store_eq]

/-- In XDATA, the bytes are stored at the pointer and nothing else changes. -/
theorem usbReadFifo_xdata {o : Object ρ} (hc : D.code o = none) (bytes : List UInt8) (k : ℕ)
    (v : Device ρ δ) (o' : Object ρ) (i : ℕ) : (usbReadFifo D bytes ⟨o, k⟩ v).xdata o' i =
      if o' = o ∧ k ≤ i ∧ i < k + bytes.length then bytes.getD (i - k) 0 else v.xdata o' i := by
  induction bytes generalizing k v with
  | nil =>
      have hn : ¬ (o' = o ∧ k ≤ i ∧ i < k + 0) := by omega
      exact (if_neg hn).symm
  | cons byte bytes ih =>
      have hstore : (v.store D ⟨o, k⟩ byte).xdata o' i =
          if o' = o ∧ i = k then byte else v.xdata o' i := by
        rw [store, hc, if_neg (by simp)]
        dsimp only
        by_cases ho : o' = o
        · subst ho
          by_cases hi : i = k
          · subst hi
            rw [Function.update_self, Function.update_self, if_pos ⟨rfl, rfl⟩]
          · rw [Function.update_self, Function.update_of_ne hi, if_neg fun hc => hi hc.2]
        · rw [Function.update_of_ne ho, if_neg fun hc => ho hc.1]
      have hnext : (⟨o, k⟩ : Pointer ρ).add 1 = ⟨o, k + 1⟩ := rfl
      rw [usbReadFifo, hnext, ih, hstore, List.length_cons]
      by_cases ho : o' = o
      · by_cases hi : i = k
        · rw [if_neg (by omega), if_pos ⟨ho, hi⟩, if_pos ⟨ho, by omega, by omega⟩, hi, Nat.sub_self,
            List.getD_cons_zero]
        · by_cases hin : k + 1 ≤ i ∧ i < k + 1 + bytes.length
          · have hsub : i - k = i - (k + 1) + 1 := by omega
            rw [if_pos ⟨ho, hin⟩, if_pos ⟨ho, by omega, by omega⟩, hsub, List.getD_cons_succ]
          · rw [if_neg fun hc => hin hc.2, if_neg fun hc => hi hc.2, if_neg (by omega)]
      · rw [if_neg fun hc => ho hc.1, if_neg fun hc => ho hc.1, if_neg fun hc => ho hc.1]

theorem receiveData_eq (r : Readings) (v : Device ρ δ) : v.receiveData D r = { v with
    xdata := (v.receiveData D r).xdata
    controlTransferPointer := v.controlTransferPointer.add (v.bytesReceived r)
    controlTransferBytesLeft := v.controlTransferBytesLeft - v.bytesReceived r } := by
  unfold receiveData
  dsimp only
  rw [usbReadFifo_eq]

omit [DecidableEq ρ] in
variable {D} in
theorem inPacket_of_ne_read (hn : u.controlTransferState ≠ .read) : u.inPacket D r = (u, []) :=
  if_neg fun h => hn h.2

omit [DecidableEq ρ] in
theorem inPacket_eq (v : Device ρ δ) : (v.inPacket D r).1 = { v with
    controlTransferState := (v.inPacket D r).1.controlTransferState
    controlTransferPointer := (v.inPacket D r).1.controlTransferPointer
    controlTransferBytesLeft := (v.inPacket D r).1.controlTransferBytesLeft } := by
  unfold inPacket
  dsimp only
  split_ifs <;> rfl

omit [DecidableEq ρ] in
theorem finishWrite_eq (r : Readings) (v : Device ρ δ) : ∃ value,
    (value = 0x68 ∨ value = 0x48) ∧ v.finishWrite D r =
      ({ (if v.usbSetupPacket.requestType ≠ 0 then D.usbCallbackControlWriteHandler r v else v) with
        usbindex := 0
        controlTransferState := .none }, [.usbcs0 0 value]) := by
  unfold finishWrite
  dsimp only
  generalize (if v.usbSetupPacket.requestType ≠ 0 then D.usbCallbackControlWriteHandler r v
    else v) = w
  by_cases hn : w.selectEp0.controlTransferState = .none
  · rw [if_pos hn]
    have hw : w.controlTransferState = .none := hn
    refine ⟨0x68, Or.inl rfl, ?_⟩
    rw [← hw]
    rfl
  · rw [if_neg hn]
    exact ⟨0x48, Or.inr rfl, rfl⟩

omit [DecidableEq ρ] in
theorem answerSetup_of_read {v : Device ρ δ} (hr : v.controlTransferState = .read) :
    v.answerSetup = (v, []) := by
  rw [answerSetup, hr]

omit [DecidableEq ρ] in
/-- Unless a control read begins, the SETUP packet is answered at once. -/
theorem answerSetup_of_ne_read {v : Device ρ δ} (hn : v.controlTransferState ≠ .read) : ∃ value,
    (value = 0x60 ∨ value = 0x40 ∨ value = 0x4A) ∧ v.answerSetup = ({ v with
      controlTransferState := if v.controlTransferState = .write ∧ v.controlTransferBytesLeft ≠ 0
        then .write else .none }, [.usbcs0 v.usbindex value]) := by
  unfold answerSetup
  cases hs : v.controlTransferState with
  | none =>
      have hsame : { v with controlTransferState := .none } = v := by rw [← hs]
      have hw : ¬ (ControlTransferState.none = .write ∧ v.controlTransferBytesLeft ≠ 0) :=
        fun hc => by cases hc.1
      refine ⟨0x60, Or.inl rfl, ?_⟩
      rw [if_neg hw, hsame]
      rfl
  | write =>
      have hsame : { v with controlTransferState := .write } = v := by rw [← hs]
      dsimp only
      by_cases hl : v.controlTransferBytesLeft ≠ 0
      · refine ⟨0x40, Or.inr (Or.inl rfl), ?_⟩
        rw [if_pos hl, if_pos ⟨rfl, hl⟩, hsame]
        rfl
      · refine ⟨0x4A, Or.inr (Or.inr rfl), ?_⟩
        rw [if_neg hl, if_neg fun hc => hl hc.2]
        rfl
  | read => exact absurd hs hn

theorem out_eq_true (ho : r.out = true) : r.ep0 = true := (Bool.and_eq_true_iff.mp ho).1

theorem usbPoll_takesSetup (h : u.takesSetup r = true) : u.usbPoll D r =
    (Ep0.andThen (u.handled D r, flagLog r ++ [.setup (.ofFifo r.fifo)])
      answerSetup).andThen fun v => v.inPacket D r := by
  have hs : (u.ready r).setupPacket D r = ((u.handled D r).answerSetup.1,
      [.setup (.ofFifo r.fifo)] ++ (u.handled D r).answerSetup.2) := rfl
  rw [usbPoll_ep0 r u D (out_eq_true (takesSetup_iff.mp h).1)]
  unfold Ep0.andThen
  dsimp only
  rw [outPacket_of_takesSetup D h, hs, ← List.append_assoc]

theorem usbPoll_takesData (h : u.takesData r = true) : u.usbPoll D r =
    (Ep0.andThen (u.ready r, flagLog r) fun v => v.dataPacket D r).andThen
      fun v => v.inPacket D r := by
  rw [usbPoll_ep0 r u D (out_eq_true (takesData_iff.mp h).1)]
  unfold Ep0.andThen
  dsimp only
  rw [outPacket_of_takesData D h]

theorem usbPoll_dropped (he : r.ep0 = true) (hd : u.takesData r = false)
    (hs : u.takesSetup r = false) : u.usbPoll D r =
      Ep0.andThen (u.ready r, flagLog r ++ if r.outpktRdy then [.usbcs0 0 0x40] else [])
        fun v => v.inPacket D r := by
  rw [usbPoll_ep0 r u D he]
  unfold Ep0.andThen
  dsimp only
  rw [outPacket_of_dropped D he hd hs]

end Device

/-! ### The variables of the class driver -/

/-- Whatever a callback of the driver does to its variables is described by `R`. -/
structure ClassDriver.Respects {ρ δ : Type*} (D : ClassDriver ρ δ) (R : δ → δ → Prop) : Prop where
  refl : ∀ v, R v v
  setupHandler : ∀ r u, R u.vars (D.usbCallbackSetupHandler r u).vars
  classDescriptorHandler : ∀ r u, R u.vars (D.usbCallbackClassDescriptorHandler r u).vars
  initEndpoints : ∀ r u, R u.vars (D.usbCallbackInitEndpoints r u).vars
  controlWriteHandler : ∀ r u, R u.vars (D.usbCallbackControlWriteHandler r u).vars

namespace ClassDriver.Respects

variable {ρ δ : Type*} {D : ClassDriver ρ δ} {R : δ → δ → Prop}

theorem getDescriptor (h : D.Respects R) (r : Readings) (u : Device ρ δ) :
    R u.vars (u.getDescriptor D r).vars := by
  have hclass := h.classDescriptorHandler r u
  unfold Device.getDescriptor
  dsimp only
  split_ifs
  · exact h.refl _
  · exact h.refl _
  · exact h.refl _
  · exact h.refl _
  · exact h.refl _
  · exact hclass
  · exact hclass

theorem setConfiguration (h : D.Respects R) (r : Readings) (u : Device ρ δ) :
    R u.vars (u.setConfiguration D r).vars := by
  unfold Device.setConfiguration
  by_cases hzero : u.usbSetupPacket.wValue = 0
  · rw [if_pos hzero]
    exact h.refl _
  · rw [if_neg hzero]
    split_ifs
    · exact h.initEndpoints r { u with usbDeviceState := .configured }
    · exact h.refl _

theorem getInterface_vars (u : Device ρ δ) : (u.getInterface D).vars = u.vars := by
  unfold Device.getInterface
  split_ifs <;> rfl

theorem getStatus_vars [DecidableEq ρ] (r : Readings) (u : Device ρ δ) :
    (u.getStatus D r).vars = u.vars := by
  unfold Device.getStatus
  dsimp only
  by_cases hdevice : u.usbSetupPacket.recipient = 0
  · rw [if_pos hdevice]
    rfl
  · rw [if_neg hdevice]
    split_ifs <;> rfl

theorem usbStandardDeviceRequestHandler [DecidableEq ρ] (h : D.Respects R) (r : Readings)
    (u : Device ρ δ) : R u.vars (u.usbStandardDeviceRequestHandler D r).vars := by
  unfold Device.usbStandardDeviceRequestHandler
  dsimp only
  cases StandardRequest.ofByte? (u.setResponse 0 0).usbSetupPacket.bRequest with
  | none => exact h.refl _
  | some request =>
      cases request with
      | getDescriptor => exact h.getDescriptor r (u.setResponse 0 0)
      | setConfiguration => exact h.setConfiguration r (u.setResponse 0 0)
      | getInterface =>
          dsimp only
          rw [getInterface_vars]
          exact h.refl _
      | getStatus =>
          dsimp only
          rw [getStatus_vars]
          exact h.refl _
      | setAddress => exact h.refl _
      | getConfiguration => exact h.refl _
      | setFeature => exact h.refl _
      | clearFeature => exact h.refl _
      | synchFrame => exact h.refl _

theorem inPacket_vars (r : Readings) (u : Device ρ δ) : (u.inPacket D r).1.vars = u.vars := by
  rw [Device.inPacket_eq]

theorem answerSetup_vars (u : Device ρ δ) : u.answerSetup.1.vars = u.vars := by
  unfold Device.answerSetup
  cases u.controlTransferState with
  | none => rfl
  | write =>
      dsimp only
      split_ifs <;> rfl
  | read => rfl

theorem dataPacket [DecidableEq ρ] (h : D.Respects R) (r : Readings) (u : Device ρ δ) :
    R u.vars (u.dataPacket D r).1.vars := by
  have hreceive : (u.receiveData D r).vars = u.vars := by rw [Device.receiveData_eq]
  unfold Device.dataPacket
  dsimp only
  rw [← hreceive]
  generalize u.receiveData D r = v
  split_ifs
  · exact h.refl _
  · obtain ⟨value, -, hfinish⟩ := Device.finishWrite_eq D r v
    rw [hfinish]
    dsimp only
    split_ifs
    · exact h.controlWriteHandler r v
    · exact h.refl _

theorem setupPacket [DecidableEq ρ] (h : D.Respects R) (r : Readings) (u : Device ρ δ) :
    R u.vars (u.setupPacket D r).1.vars := by
  have htake : (u.takeSetup r).1.vars = u.vars := rfl
  unfold Device.setupPacket Device.handleSetup
  rw [Ep0.andThen_fst, answerSetup_vars, ← htake]
  generalize (u.takeSetup r).1 = v
  split_ifs
  · exact h.usbStandardDeviceRequestHandler r v
  · exact h.setupHandler r v

/-- A call of `usbPoll` runs at most one callback. -/
theorem usbPoll [DecidableEq ρ] (h : D.Respects R) (r : Readings) (u : Device ρ δ) :
    R u.vars (u.usbPoll D r).1.vars := by
  by_cases he : r.ep0 = true
  · rw [Device.usbPoll_ep0 r u D he, Ep0.andThen_fst, inPacket_vars, Ep0.andThen_fst,
      ← Device.ready_vars r u]
    generalize u.ready r = v
    unfold Device.outPacket
    split_ifs
    · exact h.dataPacket r v
    · exact h.setupPacket r v
    · exact h.refl _
    · exact h.refl _
  · obtain ⟨state, suspend, hpoll⟩ := Device.usbPoll_not_ep0 r u D (Bool.eq_false_iff.mpr he)
    rw [hpoll]
    exact h.refl _

end ClassDriver.Respects
end WixelSdk.Usb
