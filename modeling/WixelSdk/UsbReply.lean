import WixelSdk.UsbCdcAcm
import WixelSdk.UsbHid
import WixelSdk.UsbPoll

/-!
# The requests that start a control read

A `ReplyTable` lists the requests of a class driver that start a control read, as conditions on the
SETUP packet and the device state. `fixedReply?` gives the size of the replies that are no
descriptors. The tables of the two class drivers follow, with the proof that the callbacks and the
standard requests answer as the tables say.
-/

namespace WixelSdk.Usb

structure ReplyTable where
  bNumInterfaces : UInt8
  stringCount : UInt8
  classReply? : SetupPacket → Option ℕ
  classDescriptor : SetupPacket → Bool

namespace ReplyTable

variable (T : ReplyTable)

/-- The sizes of the replies to the standard requests other than GET_DESCRIPTOR. -/
def standardReply? (state : DeviceState) (p : SetupPacket) : Option ℕ :=
  match StandardRequest.ofByte? p.bRequest with
  | some .getConfiguration => some 1
  | some .getInterface =>
      if state = .configured ∧ p.wIndex < T.bNumInterfaces.toUInt16 then some 1 else none
  | some .getStatus =>
      if p.recipient = 0 then some 2
      else if p.recipient = 1 then
        if (state = .configured ∨ p.wIndex = 0) ∧ p.wIndex < T.bNumInterfaces.toUInt16 then some 2
        else none
      else if p.recipient = 2 ∧ p.wValue &&& 15 ≠ 0 ∧ state = .configured then some 2
      else none
  | some .synchFrame => some 2
  | _ => none

def fixedReply? (state : DeviceState) (p : SetupPacket) : Option ℕ :=
  if p.requestType = 0 then T.standardReply? state p else T.classReply? p

/-- The GET_DESCRIPTOR requests for a descriptor that the device has. -/
def descriptor (p : SetupPacket) : Bool :=
  decide (p.requestType = 0 ∧ StandardRequest.ofByte? p.bRequest = some .getDescriptor) &&
    if p.valueHigh = 1 then true
    else if p.valueHigh = 2 then decide (p.valueLow = 0)
    else if p.valueHigh = 3 then decide (p.valueLow < T.stringCount.toUInt16)
    else T.classDescriptor p

def startsRead (state : DeviceState) (p : SetupPacket) : Bool :=
  (T.fixedReply? state p).isSome || T.descriptor p

end ReplyTable

/-- `v` has started a control read of the given size, or none. -/
def Device.Answers {ρ δ : Type*} (v : Device ρ δ) (size? : Option ℕ) : Prop :=
  match size? with
  | some n => v.controlTransferState = .read ∧ v.controlTransferBytesLeft = n
  | none => v.controlTransferState ≠ .read

/-- The callbacks and the CODE memory of a driver agree with its table. -/
structure ReplyTable.Describes {ρ δ : Type*} (T : ReplyTable) (D : ClassDriver ρ δ) : Prop where
  bNumInterfaces : ∃ bytes, D.code .usbConfigurationDescriptor = some bytes ∧
    bytes 4 = T.bNumInterfaces
  stringCount : D.usbStringDescriptorCount = T.stringCount
  setup : ∀ r (u : Device ρ δ), u.controlTransferState = .none →
    (D.usbCallbackSetupHandler r u).Answers (T.classReply? u.usbSetupPacket)
  classDescriptor : ∀ r (u : Device ρ δ), u.controlTransferState = .none →
    (D.usbCallbackClassDescriptorHandler r u).usbSetupPacket = u.usbSetupPacket ∧
    ((D.usbCallbackClassDescriptorHandler r u).controlTransferState ≠ .none ↔
      T.classDescriptor u.usbSetupPacket = true)

namespace Device

variable {ρ δ : Type*} {u : Device ρ δ}

@[simp] theorem setResponse_usbSetupPacket (r0 r1 : UInt8) [DecidableEq ρ] :
    (u.setResponse r0 r1).usbSetupPacket = u.usbSetupPacket := rfl

@[simp] theorem setResponse_usbDeviceState (r0 r1 : UInt8) [DecidableEq ρ] :
    (u.setResponse r0 r1).usbDeviceState = u.usbDeviceState := rfl

theorem answers_usbControlRead (n : ℕ) (source : Pointer ρ) :
    (u.usbControlRead n source).Answers (some n) := ⟨rfl, rfl⟩

theorem answers_usbControlAcknowledge : u.usbControlAcknowledge.Answers none := by
  change ControlTransferState.write ≠ .read
  nofun

theorem answers_usbControlWrite (n : ℕ) (target : Pointer ρ) :
    (u.usbControlWrite n target).Answers none := by
  change ControlTransferState.write ≠ .read
  nofun

theorem answers_none (hn : u.controlTransferState = .none) : u.Answers none := by
  change u.controlTransferState ≠ .read
  rw [hn]
  nofun

/-- A reply that is limited to what the host has requested. -/
def AnswersWithin (v : Device ρ δ) (wLength : UInt16) : Prop :=
  v.controlTransferState = .read ∧ v.controlTransferBytesLeft ≤ wLength.toNat

theorem answersWithin_readDescriptor : u.readDescriptor.AnswersWithin u.usbSetupPacket.wLength :=
  ⟨rfl, Nat.min_le_right _ _⟩

end Device

theorem DeviceState.value_lt_configured (state : DeviceState) :
    state.value < DeviceState.configured.value ↔ state ≠ .configured := by
  cases state <;> decide

/-! ### Standard requests -/

namespace ReplyTable.Describes

open Device

variable {ρ δ : Type*} {T : ReplyTable} {D : ClassDriver ρ δ} {u : Device ρ δ}

theorem load_bNumInterfaces (h : T.Describes D) (u : Device ρ δ) :
    u.bNumInterfaces D = T.bNumInterfaces := by
  obtain ⟨bytes, hcode, hb⟩ := h.bNumInterfaces
  unfold Device.bNumInterfaces load
  rw [hcode]
  exact hb

theorem getInterface (h : T.Describes D) (hn : u.controlTransferState = .none)
    (hreq : StandardRequest.ofByte? u.usbSetupPacket.bRequest = some .getInterface) :
    (u.getInterface D).Answers (T.standardReply? u.usbDeviceState u.usbSetupPacket) := by
  unfold Device.getInterface standardReply?
  rw [hreq, h.load_bNumInterfaces]
  dsimp only
  by_cases hs : u.usbDeviceState = .configured
  · have hv : ¬ u.usbDeviceState.value < DeviceState.configured.value := by
      rw [DeviceState.value_lt_configured]
      exact fun hne => hne hs
    rw [if_neg hv]
    by_cases hi : u.usbSetupPacket.wIndex < T.bNumInterfaces.toUInt16
    · rw [if_neg (UInt16.not_le.mpr hi), if_pos ⟨hs, hi⟩]
      exact answers_usbControlRead _ _
    · rw [if_pos (UInt16.not_lt.mp hi), if_neg fun hc => hi hc.2]
      exact answers_none hn
  · rw [if_pos ((DeviceState.value_lt_configured _).mpr hs), if_neg fun hc => hs hc.1]
    exact answers_none hn

theorem getStatus [DecidableEq ρ] (h : T.Describes D) (r : Readings)
    (hn : u.controlTransferState = .none)
    (hreq : StandardRequest.ofByte? u.usbSetupPacket.bRequest = some .getStatus) :
    (u.getStatus D r).Answers (T.standardReply? u.usbDeviceState u.usbSetupPacket) := by
  unfold Device.getStatus standardReply?
  rw [hreq, h.load_bNumInterfaces]
  dsimp only
  simp only [DeviceState.value_lt_configured]
  by_cases h0 : u.usbSetupPacket.recipient = 0
  · rw [if_pos h0, if_pos h0]
    exact answers_usbControlRead _ _
  · rw [if_neg h0, if_neg h0]
    by_cases h1 : u.usbSetupPacket.recipient = 1
    · rw [if_pos h1, if_pos h1]
      by_cases hi : u.usbSetupPacket.wIndex < T.bNumInterfaces.toUInt16
      · by_cases hs : u.usbDeviceState = .configured ∨ u.usbSetupPacket.wIndex = 0
        · have hc : ¬ (u.usbDeviceState ≠ .configured ∧ u.usbSetupPacket.wIndex ≠ 0) := by
            rintro ⟨ha, hb⟩
            exact hs.elim ha hb
          rw [if_neg hc, if_neg (UInt16.not_le.mpr hi), if_pos ⟨hs, hi⟩]
          exact answers_usbControlRead _ _
        · rw [if_pos (not_or.mp hs), if_neg fun hc => hs hc.1]
          exact answers_none hn
      · rw [if_pos (UInt16.not_lt.mp hi), ite_self, if_neg fun hc => hi hc.2]
        exact answers_none hn
    · rw [if_neg h1, if_neg h1]
      by_cases h2 : u.usbSetupPacket.recipient = 2
      · rw [if_pos h2]
        by_cases hz : u.usbSetupPacket.wValue &&& 15 = 0
        · rw [if_pos hz, if_neg fun hc => hc.2.1 hz]
          exact answers_none hn
        · by_cases hs : u.usbDeviceState = .configured
          · rw [if_neg hz, if_neg (fun hc => hc hs), if_pos ⟨h2, hz, hs⟩]
            exact answers_usbControlRead _ _
          · rw [if_neg hz, if_pos hs, if_neg fun hc => hs hc.2.2]
            exact answers_none hn
      · rw [if_neg h2, if_neg fun hc => h2 hc.1]
        exact answers_none hn

/-- GET_DESCRIPTOR: a control read that is limited to wLength, or a stall. -/
theorem getDescriptor (h : T.Describes D) (r : Readings) (hn : u.controlTransferState = .none)
    (htype : u.usbSetupPacket.requestType = 0)
    (hreq : StandardRequest.ofByte? u.usbSetupPacket.bRequest = some .getDescriptor) :
    (T.descriptor u.usbSetupPacket = true →
      (u.getDescriptor D r).AnswersWithin u.usbSetupPacket.wLength) ∧
    (T.descriptor u.usbSetupPacket = false → (u.getDescriptor D r).Answers none) := by
  have hstall := answers_none hn
  unfold Device.getDescriptor descriptor
  rw [decide_eq_true ⟨htype, hreq⟩, Bool.true_and, h.stringCount]
  dsimp only
  by_cases h1 : u.usbSetupPacket.valueHigh = 1
  · simp only [if_pos h1]
    exact ⟨fun _ => answersWithin_readDescriptor, nofun⟩
  · simp only [if_neg h1]
    by_cases h2 : u.usbSetupPacket.valueHigh = 2
    · simp only [if_pos h2]
      by_cases hl : u.usbSetupPacket.valueLow = 0
      · rw [if_neg (fun hc => hc hl), decide_eq_true hl]
        exact ⟨fun _ => answersWithin_readDescriptor, nofun⟩
      · rw [if_pos hl, decide_eq_false hl]
        exact ⟨nofun, fun _ => hstall⟩
    · simp only [if_neg h2]
      by_cases h3 : u.usbSetupPacket.valueHigh = 3
      · simp only [if_pos h3]
        by_cases hl : u.usbSetupPacket.valueLow < T.stringCount.toUInt16
        · rw [if_neg (UInt16.not_le.mpr hl), decide_eq_true hl]
          exact ⟨fun _ => answersWithin_readDescriptor, nofun⟩
        · rw [if_pos (UInt16.not_lt.mp hl), decide_eq_false hl]
          exact ⟨nofun, fun _ => hstall⟩
      · simp only [if_neg h3]
        obtain ⟨hpacket, hiff⟩ := h.classDescriptor r u hn
        by_cases hc : (D.usbCallbackClassDescriptorHandler r u).controlTransferState = .none
        · have hfalse : T.classDescriptor u.usbSetupPacket = false :=
            Bool.eq_false_iff.mpr fun ht => hiff.mpr ht hc
          rw [if_pos hc, hfalse]
          exact ⟨nofun, fun _ => answers_none hc⟩
        · rw [if_neg hc, hiff.mp hc, ← hpacket]
          exact ⟨fun _ => answersWithin_readDescriptor, nofun⟩

variable [DecidableEq ρ]

theorem usbStandardDeviceRequestHandler (h : T.Describes D) (r : Readings)
    (hn : u.controlTransferState = .none) (htype : u.usbSetupPacket.requestType = 0) :
    (T.descriptor u.usbSetupPacket = true →
      (u.usbStandardDeviceRequestHandler D r).AnswersWithin u.usbSetupPacket.wLength) ∧
    (T.descriptor u.usbSetupPacket = false →
      (u.usbStandardDeviceRequestHandler D r).Answers
        (T.standardReply? u.usbDeviceState u.usbSetupPacket)) := by
  by_cases hd : StandardRequest.ofByte? u.usbSetupPacket.bRequest = some .getDescriptor
  · have hg := h.getDescriptor (u := u.setResponse 0 0) r hn htype hd
    unfold Device.usbStandardDeviceRequestHandler standardReply?
    simp only [setResponse_usbSetupPacket, hd] at hg ⊢
    exact hg
  · have hno : T.descriptor u.usbSetupPacket = false := by
      rw [descriptor, decide_eq_false fun hc => hd hc.2, Bool.false_and]
    refine ⟨fun ht => ?_, fun _ => ?_⟩
    · rw [hno] at ht
      cases ht
    · have hi := h.getInterface (u := u.setResponse 0 0) hn
      have hs := h.getStatus (u := u.setResponse 0 0) r hn
      unfold Device.usbStandardDeviceRequestHandler
      unfold standardReply? at hi hs ⊢
      simp only [setResponse_usbSetupPacket, setResponse_usbDeviceState] at hi hs ⊢
      cases hreq : StandardRequest.ofByte? u.usbSetupPacket.bRequest with
      | none => exact answers_none hn
      | some request =>
          rw [hreq] at hi hs
          cases request with
          | getDescriptor => exact absurd hreq hd
          | getInterface => exact hi rfl
          | getStatus => exact hs rfl
          | getConfiguration => exact answers_usbControlRead _ _
          | synchFrame => exact answers_usbControlRead _ _
          | setAddress => exact answers_usbControlAcknowledge
          | setFeature => exact answers_usbControlAcknowledge
          | clearFeature => exact answers_usbControlAcknowledge
          | setConfiguration =>
              dsimp only
              unfold setConfiguration
              by_cases h0 : u.usbSetupPacket.wValue = 0
              · rw [setResponse_usbSetupPacket, if_pos h0]
                exact answers_usbControlAcknowledge
              · rw [setResponse_usbSetupPacket, if_neg h0]
                split_ifs
                · exact answers_usbControlAcknowledge
                · exact answers_none hn

/-- How the device answers the SETUP packet. -/
theorem handled (h : T.Describes D) (r : Readings) (u : Device ρ δ) :
    (T.descriptor (.ofFifo r.fifo) = true →
      (u.handled D r).AnswersWithin (SetupPacket.ofFifo r.fifo).wLength) ∧
    (T.descriptor (.ofFifo r.fifo) = false →
      (u.handled D r).Answers (T.fixedReply? (u.ready r).usbDeviceState (.ofFifo r.fifo))) := by
  unfold Device.handled handleSetup fixedReply?
  by_cases htype : (SetupPacket.ofFifo r.fifo).requestType = 0
  · have hs := h.usbStandardDeviceRequestHandler (u := ((u.ready r).takeSetup r).1) r rfl htype
    rw [if_pos htype, if_pos (show ((u.ready r).takeSetup r).1.usbSetupPacket.requestType = 0
      from htype)]
    exact hs
  · have hs := h.setup r ((u.ready r).takeSetup r).1 rfl
    have hno : T.descriptor (.ofFifo r.fifo) = false := by
      rw [descriptor, decide_eq_false fun hc => htype hc.1, Bool.false_and]
    rw [if_neg htype, if_neg (show ¬ ((u.ready r).takeSetup r).1.usbSetupPacket.requestType = 0
      from htype)]
    refine ⟨fun ht => ?_, fun _ => hs⟩
    rw [hno] at ht
    cases ht

/-- The table says which SETUP packets start a control read. -/
theorem handled_read_iff (h : T.Describes D) (r : Readings) (u : Device ρ δ) :
    (u.handled D r).controlTransferState = .read ↔
      T.startsRead (u.ready r).usbDeviceState (.ofFifo r.fifo) = true := by
  obtain ⟨hdesc, hfixed⟩ := h.handled r u
  unfold startsRead
  cases hd : T.descriptor (.ofFifo r.fifo) with
  | true => simp only [Bool.or_true, (hdesc hd).1]
  | false =>
      have ha := hfixed hd
      cases hr : T.fixedReply? (u.ready r).usbDeviceState (.ofFifo r.fifo) with
      | none =>
          rw [hr] at ha
          exact ⟨fun hread => absurd hread ha, nofun⟩
      | some n =>
          rw [hr] at ha
          simp only [Option.isSome_some, Bool.true_or, ha.1]

/-- A descriptor is no fixed reply. -/
theorem fixedReply?_of_descriptor (state : DeviceState) (p : SetupPacket)
    (hd : T.descriptor p = true) : T.fixedReply? state p = none := by
  obtain ⟨hreq, -⟩ := Bool.and_eq_true_iff.mp hd
  obtain ⟨htype, hbyte⟩ := of_decide_eq_true hreq
  rw [fixedReply?, if_pos htype, standardReply?, hbyte]

end ReplyTable.Describes

/-! ### The two class drivers -/

end WixelSdk.Usb

namespace WixelSdk.UsbCdcAcm
open Usb

def replyTable : ReplyTable where
  bNumInterfaces := 2
  stringCount := 4
  classReply? p :=
    if addressed p ∧ AcmRequest.ofByte? p.bRequest = some .getLineCoding then some 7 else none
  classDescriptor _ := false

theorem describes (serial : ℕ → UInt8) : replyTable.Describes (usbCdcAcm serial) where
  bNumInterfaces := ⟨_, rfl, rfl⟩
  stringCount := rfl
  setup r u hn := by
    change (usbCallbackSetupHandler r u).Answers _
    unfold usbCallbackSetupHandler replyTable
    dsimp only
    by_cases ha : addressed u.usbSetupPacket
    · rw [if_pos ha]
      cases hreq : AcmRequest.ofByte? u.usbSetupPacket.bRequest with
      | none =>
          rw [if_neg (by simp)]
          exact Device.answers_none hn
      | some request =>
          cases request with
          | getLineCoding =>
              rw [if_pos ⟨ha, rfl⟩]
              exact Device.answers_usbControlRead _ _
          | setLineCoding =>
              rw [if_neg (by simp)]
              exact Device.answers_usbControlWrite _ _
          | setControlLineState =>
              rw [if_neg (by simp)]
              exact Device.answers_usbControlAcknowledge
    · rw [if_neg ha, if_neg fun hc => ha hc.1]
      exact Device.answers_none hn
  classDescriptor _ _ hn := ⟨rfl, fun hne => absurd hn hne, nofun⟩

end WixelSdk.UsbCdcAcm

namespace WixelSdk.UsbHid
open Usb

def replyTable : ReplyTable where
  bNumInterfaces := 3
  stringCount := 7
  classReply? p :=
    if addressed p then
      match HidRequest.ofByte? p.bRequest with
      | some .getReport =>
          if p.valueHigh = 1 then
            if p.wIndex = 0 then some 8
            else if p.wIndex = 1 then some 4
            else if p.wIndex = 2 then some 20
            else none
          else none
      | some .getIdle => if p.wIndex = 0 then some 1 else none
      | some .getProtocol => if p.wIndex = 0 ∨ p.wIndex = 1 then some 1 else none
      | _ => none
    else none
  classDescriptor p :=
    decide (p.bmRequestType = 0x81 ∧ (p.valueHigh = 0x21 ∨ p.valueHigh = 0x22) ∧ p.wIndex < 3)

theorem answers_readObject (o : HidObject) (u : Hid) : (readObject o u).Answers (some o.size) :=
  Device.answers_usbControlRead _ _

theorem getReport_answers {u : Hid} (hn : u.controlTransferState = .none) :
    (getReport u).Answers (if u.usbSetupPacket.valueHigh = 1 then
      (inputReport? u.usbSetupPacket.wIndex).map HidObject.size else none) := by
  unfold getReport
  by_cases hv : u.usbSetupPacket.valueHigh = 1
  · rw [if_neg (fun hc => hc hv), if_pos hv]
    cases inputReport? u.usbSetupPacket.wIndex with
    | none => exact Device.answers_none hn
    | some report => exact answers_readObject report u
  · rw [if_pos hv, if_neg hv]
    exact Device.answers_none hn

theorem inputReport?_size (wIndex : UInt16) : (inputReport? wIndex).map HidObject.size =
    if wIndex = 0 then some 8 else if wIndex = 1 then some 4 else if wIndex = 2 then some 20
    else none := by
  unfold inputReport?
  split_ifs <;> rfl

theorem setup_answers (r : Readings) {u : Hid} (hn : u.controlTransferState = .none) :
    (usbCallbackSetupHandler r u).Answers (replyTable.classReply? u.usbSetupPacket) := by
  have hreport := getReport_answers hn
  rw [inputReport?_size] at hreport
  unfold usbCallbackSetupHandler replyTable
  dsimp only
  by_cases ha : addressed u.usbSetupPacket
  · rw [if_pos ha, if_pos ha]
    cases HidRequest.ofByte? u.usbSetupPacket.bRequest with
    | none => exact Device.answers_none hn
    | some request =>
        cases request with
        | getReport => exact hreport
        | setReport =>
            dsimp only [setReport]
            split_ifs
            · exact Device.answers_usbControlWrite _ _
            · exact Device.answers_none hn
        | getIdle =>
            dsimp only [getIdle]
            split_ifs
            · exact answers_readObject _ _
            · exact Device.answers_none hn
        | setIdle =>
            dsimp only [setIdle]
            split_ifs
            · exact Device.answers_usbControlAcknowledge
            · exact Device.answers_none hn
        | getProtocol =>
            dsimp only [getProtocol]
            by_cases h0 : u.usbSetupPacket.wIndex = 0
            · rw [if_pos h0, if_pos (Or.inl h0)]
              exact answers_readObject _ _
            · by_cases h1 : u.usbSetupPacket.wIndex = 1
              · rw [if_neg h0, if_pos h1, if_pos (Or.inr h1)]
                exact answers_readObject _ _
              · rw [if_neg h0, if_neg h1, if_neg (not_or.mpr ⟨h0, h1⟩)]
                exact Device.answers_none hn
        | setProtocol =>
            dsimp only [setProtocol]
            split_ifs
            · exact Device.answers_usbControlAcknowledge
            · exact Device.answers_usbControlAcknowledge
            · exact Device.answers_none hn
  · rw [if_neg ha, if_neg ha]
    exact Device.answers_none hn

theorem reportDescriptor?_isSome (wIndex : UInt16) :
    (reportDescriptor? wIndex).isSome = decide (wIndex < 3) := by
  have hlt : wIndex < 3 ↔ wIndex = 0 ∨ wIndex = 1 ∨ wIndex = 2 := by
    simp only [UInt16.lt_iff_toNat_lt, ← UInt16.toNat_inj, UInt16.reduceToNat]
    omega
  unfold reportDescriptor?
  simp only [hlt]
  split_ifs <;> simp_all

theorem classDescriptor_answers (r : Readings) {u : Hid} (hn : u.controlTransferState = .none) :
    (usbCallbackClassDescriptorHandler r u).usbSetupPacket = u.usbSetupPacket ∧
    ((usbCallbackClassDescriptorHandler r u).controlTransferState ≠ .none ↔
      replyTable.classDescriptor u.usbSetupPacket = true) := by
  have hstall : (u.controlTransferState ≠ .none ↔ False) := by simp [hn]
  have hread : (ControlTransferState.read ≠ .none ↔ True) := by simp
  have hreport := reportDescriptor?_isSome u.usbSetupPacket.wIndex
  unfold usbCallbackClassDescriptorHandler replyTable
  simp only [decide_eq_true_eq]
  by_cases h81 : u.usbSetupPacket.bmRequestType = 0x81
  · rw [if_neg fun hc => hc h81]
    by_cases h21 : u.usbSetupPacket.valueHigh = 0x21
    · rw [if_pos h21]
      split_ifs with hi
      · exact ⟨rfl, hread.trans (by simp [h81, h21, hi])⟩
      · exact ⟨rfl, hstall.trans (by simp [hi])⟩
    · rw [if_neg h21]
      by_cases h22 : u.usbSetupPacket.valueHigh = 0x22
      · rw [if_pos h22]
        cases hd : reportDescriptor? u.usbSetupPacket.wIndex with
        | none =>
            rw [hd] at hreport
            have hi := of_decide_eq_false hreport.symm
            exact ⟨rfl, hstall.trans (by simp [hi])⟩
        | some descriptor =>
            rw [hd] at hreport
            have hi := of_decide_eq_true hreport.symm
            exact ⟨rfl, hread.trans (by simp [h81, h22, hi])⟩
      · rw [if_neg h22]
        exact ⟨rfl, hstall.trans (by simp [h21, h22])⟩
  · rw [if_pos h81]
    exact ⟨rfl, hstall.trans (by simp [h81])⟩

theorem describes (serial : ℕ → UInt8) : replyTable.Describes (usbHid serial) where
  bNumInterfaces := ⟨_, rfl, rfl⟩
  stringCount := rfl
  setup r _ hn := setup_answers r hn
  classDescriptor r _ hn := classDescriptor_answers r hn

end WixelSdk.UsbHid
