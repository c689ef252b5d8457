import Mathlib.Algebra.Group.Nat.Defs
import WixelSdk.ByteLoop
import WixelSdk.Transition

/-!
# The report of the joystick robot

`reporting.h` of `robot_joystick_control`, and the same code in `init_setup.h` of
`wireless_serial_lcc`: `putchar` appends to the report without a test of its length, and
`sendReportUSB` sends as much of it as USB takes. When all that is left fits, it resets the length
of the report but not the number of bytes sent.
-/

namespace WixelSdk.RobotReport
open Transition

def reportsize : ℕ := 1024

structure Report where
  report : ℕ → UInt8
  reportLength : ℕ
  reportBytesSent : ℕ

namespace Report

variable (r : Report)

def putchar (c : UInt8) : Report :=
  { r with
    report := Function.update r.report r.reportLength c
    reportLength := (r.reportLength + 1) % 2 ^ 16 }

def remaining : ℕ := (r.reportLength + 2 ^ 16 - r.reportBytesSent) % 2 ^ 16

def usbComTxSend (size : UInt8) : List UInt8 :=
  segment r.report r.reportBytesSent (r.reportBytesSent + size.toNat)

def sendReportUSB (bytesToSend : UInt8) : List UInt8 × Report :=
  if r.reportLength > 0 then
    if bytesToSend.toNat > r.remaining then
      (r.usbComTxSend (.ofNat r.remaining), { r with reportLength := 0 })
    else
      (r.usbComTxSend bytesToSend,
        { r with reportBytesSent := (r.reportBytesSent + bytesToSend.toNat) % 2 ^ 16 })
  else ([], r)

end Report

/-- The report, the characters put and sent so far, and whether all were put into the buffer. -/
structure History where
  r : Report
  put : List UInt8
  sent : List UInt8
  inBounds : Bool

/-- A call of `robot`: the characters that it prints, and what `usbComTxAvailable` returns. -/
structure Call where
  chars : List UInt8
  txAvailable : UInt8

namespace History

def start (report : ℕ → UInt8) : History := ⟨⟨report, 0, 0⟩, [], [], true⟩

def putchar (h : History) (c : UInt8) : History :=
  { h with
    r := h.r.putchar c
    put := h.put ++ [c]
    inBounds := h.inBounds && decide (h.r.reportLength < reportsize) }

def putchars (h : History) (chars : List UInt8) : History := chars.foldl putchar h

def sendReportUSB (h : History) (txAvailable : UInt8) : History :=
  { h with
    r := (h.r.sendReportUSB txAvailable).2
    sent := h.sent ++ (h.r.sendReportUSB txAvailable).1 }

def robot (h : History) (a : Call) : Option History :=
  some ((h.putchars a.chars).sendReportUSB a.txAvailable)

/-- The cursors are in bounds, and nothing is lost, sent twice or reordered. -/
structure InOrder (h : History) : Prop where
  bytesSent_le : h.r.reportBytesSent ≤ h.r.reportLength
  length_le : h.r.reportLength ≤ reportsize
  inBounds : h.inBounds = true
  order : h.sent ++ segment h.r.report h.r.reportBytesSent h.r.reportLength = h.put

/-- The characters fit in the buffer, and when the call sends all that is left of the report, it
sends the whole report. -/
def Whole (h : History) (a : Call) : Prop :=
  h.r.reportLength + a.chars.length ≤ reportsize ∧
    (0 < h.r.reportLength + a.chars.length →
      a.txAvailable.toNat > h.r.reportLength + a.chars.length - h.r.reportBytesSent →
      h.r.reportBytesSent = 0)

instance (h : History) (a : Call) : Decidable (h.Whole a) := by
  dsimp only [Whole]
  infer_instance

theorem start_inOrder (report : ℕ → UInt8) : (start report).InOrder where
  bytesSent_le := Nat.le_refl 0
  length_le := Nat.zero_le _
  inBounds := rfl
  order := segment_self report

/-! ### Printing -/

theorem putchars_cons (h : History) (c : UInt8) (chars : List UInt8) :
    h.putchars (c :: chars) = (h.putchar c).putchars chars := rfl

theorem InOrder.putchar {h : History} (hi : h.InOrder) (hlt : h.r.reportLength < reportsize)
    (c : UInt8) :
    (h.putchar c).InOrder ∧ (h.putchar c).r.reportLength = h.r.reportLength + 1 := by
  have hlt' : h.r.reportLength < 1024 := hlt
  have hsucc : (h.r.reportLength + 1) % 2 ^ 16 = h.r.reportLength + 1 := by omega
  refine ⟨⟨?_, ?_, ?_, ?_⟩, hsucc⟩
  · change h.r.reportBytesSent ≤ (h.r.reportLength + 1) % 2 ^ 16
    rw [hsucc]
    exact Nat.le_succ_of_le hi.bytesSent_le
  · change (h.r.reportLength + 1) % 2 ^ 16 ≤ reportsize
    rw [hsucc]
    exact hlt
  · change (h.inBounds && decide (h.r.reportLength < reportsize)) = true
    rw [hi.inBounds, decide_eq_true hlt]
    rfl
  · change h.sent ++ segment (Function.update h.r.report h.r.reportLength c) h.r.reportBytesSent
      ((h.r.reportLength + 1) % 2 ^ 16) = h.put ++ [c]
    rw [hsucc, segment_update _ _ hi.bytesSent_le, ← List.append_assoc, hi.order]

theorem InOrder.putchars {h : History} (hi : h.InOrder) {chars : List UInt8}
    (hfits : h.r.reportLength + chars.length ≤ reportsize) :
    (h.putchars chars).InOrder ∧
      (h.putchars chars).r.reportLength = h.r.reportLength + chars.length ∧
      (h.putchars chars).r.reportBytesSent = h.r.reportBytesSent := by
  induction chars generalizing h with
  | nil => exact ⟨hi, rfl, rfl⟩
  | cons c chars ih =>
    rw [List.length_cons] at hfits
    obtain ⟨hi', hlen⟩ := hi.putchar (by omega) c
    obtain ⟨hlast, hlength, hsent⟩ := ih hi' (by omega)
    rw [putchars_cons]
    refine ⟨hlast, ?_, hsent⟩
    rw [hlength, hlen, List.length_cons]
    omega

theorem putchars_inBounds_false {h : History} (hb : h.inBounds = false) (chars : List UInt8) :
    (h.putchars chars).inBounds = false := by
  induction chars generalizing h with
  | nil => exact hb
  | cons c chars ih =>
    apply ih
    change (h.inBounds && _) = false
    rw [hb, Bool.false_and]

/-- Too many characters are written behind the buffer. -/
theorem InOrder.putchars_of_long {h : History} (hi : h.InOrder) {chars : List UInt8}
    (hlong : reportsize < h.r.reportLength + chars.length) :
    (h.putchars chars).inBounds = false := by
  induction chars generalizing h with
  | nil => exact absurd hi.length_le (Nat.not_le.mpr hlong)
  | cons c chars ih =>
    rw [List.length_cons] at hlong
    by_cases hlt : h.r.reportLength < reportsize
    · obtain ⟨hi', hlen⟩ := hi.putchar hlt c
      exact ih hi' (by omega)
    · have hb : (h.putchar c).inBounds = false := by
        change (h.inBounds && decide (h.r.reportLength < reportsize)) = false
        rw [decide_eq_false hlt, Bool.and_false]
      exact putchars_inBounds_false hb chars

/-! ### Sending -/

theorem InOrder.remaining_eq {h : History} (hi : h.InOrder) :
    h.r.remaining = h.r.reportLength - h.r.reportBytesSent := by
  have hle := hi.bytesSent_le
  have hsize : h.r.reportLength ≤ 1024 := hi.length_le
  unfold Report.remaining
  omega

/-- All that is left fits. -/
theorem InOrder.send_full_iff {h : History} {n : UInt8} (hi : h.InOrder)
    (hpos : 0 < h.r.reportLength) (hfull : n.toNat > h.r.remaining) :
    (h.sendReportUSB n).InOrder ↔ h.r.reportBytesSent = 0 := by
  have hle := hi.bytesSent_le
  have hn := n.toNat_lt
  have hsize : (UInt8.ofNat h.r.remaining).toNat = h.r.remaining := by
    rw [UInt8.toNat_ofNat']
    exact Nat.mod_eq_of_lt (by omega)
  have hend : h.r.reportBytesSent + h.r.remaining = h.r.reportLength := by
    rw [hi.remaining_eq]
    omega
  rw [sendReportUSB, Report.sendReportUSB, if_pos hpos, if_pos hfull]
  constructor
  · intro hi'
    exact Nat.le_zero.mp hi'.bytesSent_le
  · intro hz
    refine ⟨Nat.le_of_eq hz, Nat.zero_le _, hi.inBounds, ?_⟩
    change (h.sent ++ segment h.r.report h.r.reportBytesSent (h.r.reportBytesSent +
      (UInt8.ofNat h.r.remaining).toNat)) ++ segment h.r.report h.r.reportBytesSent 0 = h.put
    rw [hsize, hend, hi.order, hz, segment_self, List.append_nil]

theorem InOrder.send_part {h : History} {n : UInt8} (hi : h.InOrder)
    (hpos : 0 < h.r.reportLength) (hpart : ¬n.toNat > h.r.remaining) :
    (h.sendReportUSB n).InOrder := by
  have hle := hi.bytesSent_le
  have hsize : h.r.reportLength ≤ 1024 := hi.length_le
  have hfits : h.r.reportBytesSent + n.toNat ≤ h.r.reportLength := by
    rw [hi.remaining_eq] at hpart
    omega
  have hmod : (h.r.reportBytesSent + n.toNat) % 2 ^ 16 = h.r.reportBytesSent + n.toNat := by omega
  rw [sendReportUSB, Report.sendReportUSB, if_pos hpos, if_neg hpart, hmod]
  refine ⟨hfits, hi.length_le, hi.inBounds, ?_⟩
  change (h.sent ++ segment h.r.report h.r.reportBytesSent (h.r.reportBytesSent + n.toNat)) ++
    segment h.r.report (h.r.reportBytesSent + n.toNat) h.r.reportLength = h.put
  rw [List.append_assoc, segment_append _ (Nat.le_add_right _ _) hfits, hi.order]

theorem InOrder.send_empty {h : History} {n : UInt8} (hi : h.InOrder)
    (hpos : ¬0 < h.r.reportLength) : (h.sendReportUSB n).InOrder := by
  rw [sendReportUSB, Report.sendReportUSB, if_neg hpos]
  refine ⟨hi.bytesSent_le, hi.length_le, hi.inBounds, ?_⟩
  change (h.sent ++ []) ++ _ = _
  rw [List.append_nil]
  exact hi.order

/-- A send keeps the report in order exactly when it does not leave `reportBytesSent` behind. -/
theorem InOrder.sendReportUSB_iff {h : History} (hi : h.InOrder) (n : UInt8) :
    (h.sendReportUSB n).InOrder ↔
      (0 < h.r.reportLength → n.toNat > h.r.reportLength - h.r.reportBytesSent →
        h.r.reportBytesSent = 0) := by
  rw [← hi.remaining_eq]
  by_cases hpos : 0 < h.r.reportLength
  · by_cases hfull : n.toNat > h.r.remaining
    · rw [hi.send_full_iff hpos hfull]
      exact ⟨fun hz _ _ => hz, fun hz => hz hpos hfull⟩
    · exact iff_of_true (hi.send_part hpos hfull) fun _ hn => absurd hn hfull
  · exact iff_of_true (hi.send_empty hpos) fun hp => absurd hp hpos

/-- The step: a call of `robot` keeps the report in order exactly when it is whole. -/
theorem InOrder.robot_iff {h h' : History} {a : Call} (hi : h.InOrder)
    (hs : h.robot a = some h') : h'.InOrder ↔ h.Whole a := by
  cases hs
  by_cases hfits : h.r.reportLength + a.chars.length ≤ reportsize
  · obtain ⟨hi', hlength, hsent⟩ := hi.putchars hfits
    rw [hi'.sendReportUSB_iff, hlength, hsent]
    exact ⟨fun hz => ⟨hfits, hz⟩, And.right⟩
  · have hb := hi.putchars_of_long (Nat.not_le.mp hfits)
    constructor
    · intro hi'
      exact absurd hi'.inBounds (Bool.eq_false_iff.mp hb)
    · intro hw
      exact absurd hw.1 hfits

end History

/-- As long as every call is whole, the report is sent in order; and it is the other calls that
break it. -/
theorem robot_calls_inOrder {report : ℕ → UInt8} {h : History}
    (hr : Run History.robot History.Whole (.start report) h) :
    h.InOrder ∧ ∀ a h', h.robot a = some h' → (h'.InOrder ↔ h.Whole a) := by
  have hi := hr.invariant (History.start_inOrder report) fun _ _ _ hi hw hs =>
    (hi.robot_iff hs).mpr hw
  exact ⟨hi, fun _ _ hs => hi.robot_iff hs⟩

/-- A report of two characters that is sent at once, then one that is sent in part. -/
theorem robot_calls_inOrder_two :
    ∃ h : History, (h.InOrder ∧ ∀ a h', h.robot a = some h' → (h'.InOrder ↔ h.Whole a)) ∧
      (h.put, h.sent) = ([72, 105, 33, 33], [72, 105, 33]) := by
  have hrun : (exec History.robot History.Whole (.start fun _ => 0)
      [⟨[72, 105], 128⟩, ⟨[33, 33], 1⟩]).map (fun h => (h.put, h.sent)) =
        some ([72, 105, 33, 33], [72, 105, 33]) := by
    decide +kernel
  obtain ⟨h, hr, hv⟩ := exists_run_of_exec hrun
  exact ⟨h, robot_calls_inOrder hr, hv⟩

/-- A report of three characters that needs two calls. -/
theorem not_robot_calls_inOrder_of_part :
    ¬∀ (report : ℕ → UInt8) (h : History),
      Run History.robot (fun _ a => a.txAvailable.toNat ≤ 128) (.start report) h →
        h.InOrder := by
  intro hall
  have hrun : (exec History.robot (fun _ a => a.txAvailable.toNat ≤ 128) (.start fun _ => 0)
      [⟨[97, 98, 99], 1⟩, ⟨[], 10⟩]).map (fun h => (h.r.reportLength, h.r.reportBytesSent)) =
        some (0, 1) := by
    decide +kernel
  obtain ⟨h, hr, hv⟩ := exists_run_of_exec hrun
  have hle := (hall _ h hr).bytesSent_le
  have hlength := congrArg Prod.fst hv
  have hsent := congrArg Prod.snd hv
  dsimp only at hlength hsent
  omega

end WixelSdk.RobotReport
