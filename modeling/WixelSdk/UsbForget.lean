import WixelSdk.UsbCdcAcm
import WixelSdk.UsbHid
import WixelSdk.UsbPoll

/-!
# A SETUP packet starts anew

`u.forget left pointer` is the device without a control transfer, with any values in the two
variables that a transfer in progress uses. The requests and the callbacks of both drivers treat it
like `u` once the SETUP packet is taken: a transfer that they start has its length and its pointer
from the request. From an interruption on, the events of endpoint 0 are therefore those of a device
that never had the old transfer.
-/

namespace WixelSdk.Usb

theorem ite_rel {α : Type*} {R : α → α → Prop} {p q : Prop} [Decidable p] [Decidable q]
    {a b c d : α} (hpq : p ↔ q) (h : p → R a c) (h' : ¬p → R b d) :
    R (if p then a else b) (if q then c else d) := by
  by_cases hp : p
  · rw [if_pos hp, if_pos (hpq.mp hp)]
    exact h hp
  · rw [if_neg hp, if_neg (mt hpq.mpr hp)]
    exact h' hp

namespace Device

variable {ρ δ : Type*} {u v : Device ρ δ} {left : ℕ} {pointer : Pointer ρ}

def withTransfer (left : ℕ) (pointer : Pointer ρ) (u : Device ρ δ) : Device ρ δ :=
  { u with controlTransferBytesLeft := left, controlTransferPointer := pointer }

@[simp] theorem withTransfer_usbSetupPacket :
    (u.withTransfer left pointer).usbSetupPacket = u.usbSetupPacket := rfl

def forget (left : ℕ) (pointer : Pointer ρ) (u : Device ρ δ) : Device ρ δ :=
  { u with controlTransferState := .none }.withTransfer left pointer

theorem forget_of_none (hn : u.controlTransferState = .none) :
    u.forget left pointer = u.withTransfer left pointer := by
  unfold forget
  rw [← hn]

/-- `v` goes on as `u` does: it is `u`, or neither of them has a control transfer. -/
def GoesOnAs (v u : Device ρ δ) : Prop :=
  v = u ∨ u.controlTransferState = .none ∧ ∃ left pointer, v = u.forget left pointer

theorem goesOnAs_forget (hn : u.controlTransferState = .none) :
    (u.forget left pointer).GoesOnAs u := Or.inr ⟨hn, left, pointer, rfl⟩

theorem goesOnAs_withTransfer (hn : u.controlTransferState = .none) :
    (u.withTransfer left pointer).GoesOnAs u := by
  rw [← forget_of_none hn]
  exact goesOnAs_forget hn

/-- The devices differ in nothing that their control transfers still use. -/
structure Alike (u v : Device ρ δ) : Prop where
  rest : v = u.withTransfer v.controlTransferBytesLeft v.controlTransferPointer
  bytesLeft : u.controlTransferState ≠ .none →
    v.controlTransferBytesLeft = u.controlTransferBytesLeft
  pointer : u.controlTransferState = .read ∨
    u.controlTransferState = .write ∧ u.controlTransferBytesLeft ≠ 0 →
      v.controlTransferPointer = u.controlTransferPointer

namespace Alike

protected theorem refl (u : Device ρ δ) : Alike u u := ⟨rfl, fun _ => rfl, fun _ => rfl⟩

theorem of_none (hn : u.controlTransferState = .none) :
    Alike u (u.withTransfer left pointer) where
  rest := rfl
  bytesLeft h := absurd hn h
  pointer h := by
    rcases h with h | ⟨h, -⟩ <;> rw [hn] at h <;> cases h

theorem eq (h : Alike u v) (hs : u.controlTransferState = .read ∨
    u.controlTransferState = .write ∧ u.controlTransferBytesLeft ≠ 0) : v = u := by
  have hl : u.controlTransferState ≠ .none := by
    intro hn
    rcases hs with hs | ⟨hs, -⟩ <;> rw [hn] at hs <;> cases hs
  rw [h.rest, h.bytesLeft hl, h.pointer hs]
  rfl

theorem state (h : Alike u v) : v.controlTransferState = u.controlTransferState := by
  rw [h.rest]
  rfl

theorem selectEp0 (h : Alike u v) : Alike u.selectEp0 v.selectEp0 where
  rest := by
    rw [h.rest]
    rfl
  bytesLeft := h.bytesLeft
  pointer := h.pointer

/-- An acknowledgement leaves the pointer unset, but does not use it either. -/
theorem usbControlAcknowledge (h : Alike u v) :
    Alike u.usbControlAcknowledge v.usbControlAcknowledge where
  rest := by
    rw [h.rest]
    rfl
  bytesLeft _ := rfl
  pointer hs := by
    rcases hs with hs | ⟨-, hs⟩
    · cases hs
    · exact absurd rfl hs

theorem of_goesOnAs (h : v.GoesOnAs u) : Alike u v := by
  rcases h with rfl | ⟨hn, left, pointer, rfl⟩
  · exact .refl _
  · rw [forget_of_none hn]
    exact .of_none hn

end Alike
end Device

/-- A callback that starts a transfer sets its length and its pointer. -/
structure ClassDriver.Anew {ρ δ : Type*} (D : ClassDriver ρ δ) : Prop where
  setupHandler : ∀ r (u : Device ρ δ) left pointer, u.controlTransferState = .none →
    (D.usbCallbackSetupHandler r u).Alike
      (D.usbCallbackSetupHandler r (u.withTransfer left pointer))
  classDescriptorHandler : ∀ r (u : Device ρ δ) left pointer, u.controlTransferState = .none →
    (D.usbCallbackClassDescriptorHandler r (u.withTransfer left pointer)).GoesOnAs
      (D.usbCallbackClassDescriptorHandler r u)
  initEndpoints : ∀ r (u : Device ρ δ) left pointer, u.controlTransferState = .none →
    (D.usbCallbackInitEndpoints r u).Alike
      (D.usbCallbackInitEndpoints r (u.withTransfer left pointer))

/-! ### Standard requests -/

namespace ClassDriver.Anew

open Device

variable {ρ δ : Type*} {D : ClassDriver ρ δ} {u v : Device ρ δ} {r : Readings} {left : ℕ}
  {pointer : Pointer ρ}

theorem getDescriptor (h : D.Anew) (hn : u.controlTransferState = .none) :
    (u.getDescriptor D r).Alike ((u.withTransfer left pointer).getDescriptor D r) := by
  have hstall : u.Alike (u.withTransfer left pointer) := .of_none hn
  have hclass := h.classDescriptorHandler r u left pointer hn
  have halike := Alike.of_goesOnAs hclass
  unfold Device.getDescriptor
  refine ite_rel Iff.rfl (fun _ => .refl _) fun _ => ite_rel Iff.rfl (fun _ => ?_) fun _ =>
    ite_rel Iff.rfl (fun _ => ?_) fun _ => ite_rel (by rw [halike.state]) (fun _ => halike) fun hc => ?_
  · exact ite_rel Iff.rfl (fun _ => hstall) fun _ => .refl _
  · exact ite_rel Iff.rfl (fun _ => hstall) fun _ => .refl _
  · rw [hclass.resolve_right fun hr => hc hr.1]
    exact .refl _

theorem setConfiguration (h : D.Anew) (hn : u.controlTransferState = .none) :
    (u.setConfiguration D r).Alike ((u.withTransfer left pointer).setConfiguration D r) := by
  have hinit := h.initEndpoints r { u with usbDeviceState := .configured } left pointer hn
  unfold Device.setConfiguration
  refine ite_rel Iff.rfl (fun _ => .usbControlAcknowledge ?_) fun _ =>
    ite_rel Iff.rfl (fun _ => hinit.usbControlAcknowledge) fun _ => .of_none hn
  exact .of_none (u := { u with
    usbDeviceState := if u.usbDeviceState.value > DeviceState.address.value then .address
      else u.usbDeviceState }) hn

theorem getInterface (hn : u.controlTransferState = .none) :
    (u.getInterface D).Alike ((u.withTransfer left pointer).getInterface D) := by
  unfold Device.getInterface
  exact ite_rel Iff.rfl (fun _ => .of_none hn) fun _ =>
    ite_rel Iff.rfl (fun _ => .of_none hn) fun _ => .refl _

variable [DecidableEq ρ]

theorem getStatus (hn : u.controlTransferState = .none) :
    (u.getStatus D r).Alike ((u.withTransfer left pointer).getStatus D r) := by
  have hstall : u.Alike (u.withTransfer left pointer) := .of_none hn
  unfold Device.getStatus
  refine ite_rel Iff.rfl (fun _ => .refl _) fun _ => ite_rel Iff.rfl (fun _ => ?_) fun _ =>
    ite_rel Iff.rfl (fun _ => ?_) fun _ => hstall
  · exact ite_rel Iff.rfl (fun _ => hstall) fun _ =>
      ite_rel Iff.rfl (fun _ => hstall) fun _ => .refl _
  · exact ite_rel Iff.rfl (fun _ => hstall) fun _ =>
      ite_rel Iff.rfl (fun _ => hstall) fun _ => .refl _

theorem usbStandardDeviceRequestHandler (h : D.Anew) (hn : u.controlTransferState = .none) :
    (u.usbStandardDeviceRequestHandler D r).Alike
      ((u.withTransfer left pointer).usbStandardDeviceRequestHandler D r) := by
  have hset : (u.withTransfer left pointer).setResponse 0 0 =
    (u.setResponse 0 0).withTransfer left pointer := rfl
  unfold Device.usbStandardDeviceRequestHandler
  rw [hset]
  generalize hv : u.setResponse 0 0 = v
  have hvn : v.controlTransferState = .none := hv ▸ hn
  have hstall : v.Alike (v.withTransfer left pointer) := .of_none hvn
  simp only [withTransfer_usbSetupPacket]
  cases StandardRequest.ofByte? v.usbSetupPacket.bRequest with
  | none => exact hstall
  | some request =>
      cases request with
      | getDescriptor => exact h.getDescriptor hvn
      | setConfiguration => exact h.setConfiguration hvn
      | getInterface => exact getInterface hvn
      | getStatus => exact getStatus hvn
      | getConfiguration => exact .refl _
      | synchFrame => exact .refl _
      | setFeature => exact hstall.usbControlAcknowledge
      | clearFeature => exact hstall.usbControlAcknowledge
      | setAddress =>
          exact (Alike.of_none (u := { v with
            usbaddr := v.usbSetupPacket.wValue.toUInt8
            usbDeviceState := if v.usbSetupPacket.wValue.toUInt8 ≠ 0 then .address
              else .default }) hvn).usbControlAcknowledge

theorem handleSetup (h : D.Anew) (hn : u.controlTransferState = .none) :
    (u.handleSetup D r).Alike ((u.withTransfer left pointer).handleSetup D r) :=
  .selectEp0 <| ite_rel Iff.rfl (fun _ => h.usbStandardDeviceRequestHandler hn) fun _ =>
    h.setupHandler r u left pointer hn

end ClassDriver.Anew

/-! ### Polls -/

namespace Device

variable {ρ δ : Type*} {D : ClassDriver ρ δ} {u v : Device ρ δ} {r : Readings} {left : ℕ}
  {pointer : Pointer ρ}

theorem busEvents_forget (left : ℕ) (pointer : Pointer ρ) :
    (u.forget left pointer).busEvents r = (u.busEvents r).forget left pointer := by
  unfold busEvents resumeEvent resetEvent suspendEvent attach forget withTransfer
  split_ifs <;> rfl

theorem ready_forget (left : ℕ) (pointer : Pointer ρ) :
    (u.forget left pointer).ready r = (u.ready r).forget left pointer := by
  unfold ready
  rw [busEvents_forget, flags_eq, flags_eq]
  unfold forget withTransfer
  dsimp only
  rw [ite_self]

/-- The events are the same, and so will be those of the next calls. -/
def Repeats (y x : Ep0 ρ δ) : Prop := y.2 = x.2 ∧ y.1.GoesOnAs x.1

theorem Repeats.andThen {x y : Ep0 ρ δ} {f : Device ρ δ → Ep0 ρ δ} (h : Repeats y x)
    (hf : ∀ v, v.GoesOnAs x.1 → Repeats (f v) (f x.1)) : Repeats (y.andThen f) (x.andThen f) := by
  obtain ⟨hlog, hnext⟩ := hf y.1 h.2
  refine ⟨?_, hnext⟩
  rw [Ep0.andThen_snd, Ep0.andThen_snd, h.1, hlog]

theorem repeats_inPacket (h : v.GoesOnAs u) : Repeats (v.inPacket D r) (u.inPacket D r) := by
  rcases h with rfl | ⟨hn, left, pointer, rfl⟩
  · exact ⟨rfl, Or.inl rfl⟩
  · have hu : u.controlTransferState ≠ .read := by
      rw [hn]
      nofun
    have hv : (u.forget left pointer).controlTransferState ≠ .read := nofun
    rw [inPacket_of_ne_read hu, inPacket_of_ne_read hv]
    exact ⟨rfl, goesOnAs_forget hn⟩

theorem Alike.answerSetup (h : Alike u v) : Repeats v.answerSetup u.answerSetup := by
  have hv := h.state
  have hindex : v.usbindex = u.usbindex := by
    rw [h.rest]
    rfl
  unfold Device.answerSetup
  cases hu : u.controlTransferState with
  | read =>
      rw [h.eq (Or.inl hu), hu]
      exact ⟨rfl, Or.inl rfl⟩
  | none =>
      rw [hv, hu, h.rest]
      exact ⟨rfl, goesOnAs_withTransfer hu⟩
  | write =>
      have hleft := h.bytesLeft (by rw [hu]; nofun)
      by_cases hl : u.controlTransferBytesLeft = 0
      · rw [hv, hu, hleft, hl, h.rest]
        exact ⟨rfl, goesOnAs_withTransfer (u := u.usbControlStall) rfl⟩
      · rw [h.eq (Or.inr ⟨hu, hl⟩), hu]
        exact ⟨rfl, Or.inl rfl⟩

variable [DecidableEq ρ]

theorem handled_forget (h : D.Anew) (r : Readings) (u : Device ρ δ) (left : ℕ)
    (pointer : Pointer ρ) : (u.handled D r).Alike ((u.forget left pointer).handled D r) := by
  unfold handled
  rw [ready_forget]
  exact h.handleSetup (u := ((u.ready r).takeSetup r).1) rfl

end Device

/-! ### The two class drivers -/

end WixelSdk.Usb

namespace WixelSdk.UsbCdcAcm
open Usb

theorem usbCdcAcm_anew (serialNumberStringDescriptor : ℕ → UInt8) :
    (usbCdcAcm serialNumberStringDescriptor).Anew where
  setupHandler r u left pointer hn := by
    have hstall : u.Alike (u.withTransfer left pointer) := .of_none hn
    refine ite_rel Iff.rfl (fun _ => ?_) fun _ => hstall
    rw [Device.withTransfer_usbSetupPacket]
    cases AcmRequest.ofByte? u.usbSetupPacket.bRequest with
    | none => exact hstall
    | some request =>
        cases request with
        | setLineCoding => exact .refl _
        | getLineCoding => exact .refl _
        | setControlLineState =>
            exact (Device.Alike.of_none (u := { u with
              vars := { u.vars with
                usbComControlLineState := u.usbSetupPacket.wValue.toUInt8 } })
                hn).usbControlAcknowledge
  classDescriptorHandler _ _ _ _ hn := Device.goesOnAs_withTransfer hn
  initEndpoints r u left pointer hn :=
    .of_none (u := usbCallbackInitEndpoints r u) hn

end WixelSdk.UsbCdcAcm

namespace WixelSdk.UsbHid
open Usb

theorem usbHid_anew (serialNumberStringDescriptor : ℕ → UInt8) :
    (usbHid serialNumberStringDescriptor).Anew where
  setupHandler r u left pointer hn := by
    have hstall : u.Alike (u.withTransfer left pointer) := .of_none hn
    refine ite_rel Iff.rfl (fun _ => ?_) fun _ => hstall
    rw [Device.withTransfer_usbSetupPacket]
    cases HidRequest.ofByte? u.usbSetupPacket.bRequest with
    | none => exact hstall
    | some request =>
        cases request with
        | getReport =>
            refine ite_rel Iff.rfl (fun _ => hstall) fun _ => ?_
            rw [Device.withTransfer_usbSetupPacket]
            cases inputReport? u.usbSetupPacket.wIndex with
            | none => exact hstall
            | some report => exact .refl _
        | setReport => exact ite_rel Iff.rfl (fun _ => .refl _) fun _ => hstall
        | getIdle => exact ite_rel Iff.rfl (fun _ => .refl _) fun _ => hstall
        | setIdle =>
            refine ite_rel Iff.rfl (fun _ => .usbControlAcknowledge ?_) fun _ => hstall
            exact .of_none (u := { u with
              vars := { u.vars with
                hidKeyboardIdleDuration := u.usbSetupPacket.valueHigh * 4 } }) hn
        | getProtocol =>
            exact ite_rel Iff.rfl (fun _ => .refl _) fun _ =>
              ite_rel Iff.rfl (fun _ => .refl _) fun _ => hstall
        | setProtocol =>
            refine ite_rel Iff.rfl (fun _ => .usbControlAcknowledge ?_) fun _ =>
              ite_rel Iff.rfl (fun _ => .usbControlAcknowledge ?_) fun _ => hstall
            · exact .of_none (u := { u with
                vars := { u.vars with
                  hidKeyboardProtocol := decide (u.usbSetupPacket.wValue ≠ 0) } }) hn
            · exact .of_none (u := { u with
                vars := { u.vars with
                  hidMouseProtocol := decide (u.usbSetupPacket.wValue ≠ 0) } }) hn
  classDescriptorHandler r u left pointer hn := by
    have hstall : (u.withTransfer left pointer).GoesOnAs u := Device.goesOnAs_withTransfer hn
    refine ite_rel Iff.rfl (fun _ => hstall) fun _ => ite_rel Iff.rfl (fun _ => ?_) fun _ =>
      ite_rel Iff.rfl (fun _ => ?_) fun _ => hstall
    · exact ite_rel Iff.rfl (fun _ => Or.inl rfl) fun _ => hstall
    · rw [Device.withTransfer_usbSetupPacket]
      cases reportDescriptor? u.usbSetupPacket.wIndex with
      | none => exact hstall
      | some descriptor => exact Or.inl rfl
  initEndpoints r u left pointer hn :=
    .of_none (u := usbCallbackInitEndpoints r u) hn

end WixelSdk.UsbHid
