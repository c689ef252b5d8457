import Mathlib.Algebra.Group.Nat.Defs
import WixelSdk.ByteLoop
import WixelSdk.Transition

/-!
# The report of the waypoint navigator

`waypointnav.c`: `putchar` appends to the report, and `sendReportRadio` sends as much of it as the
radio takes. The report has up to 1024 characters and 16-bit cursors, but the loops that send it
have an 8-bit index.
-/

namespace WixelSdk.WaypointReport
open Transition

def reportsize : ℕ := 1024

structure Report where
  report : ℕ → UInt8
  reportLength : ℕ
  reportBytesSent : ℕ
  bufferOverflow : Bool

/-- The calls, with what `radioComTxAvailable` returns. -/
inductive Call
  | putchar (c : UInt8)
  | sendReportRadio (txAvailable : UInt8)

namespace Report

variable (r : Report)

def putchar (c : UInt8) : Report :=
  if r.reportLength ≥ reportsize then { r with bufferOverflow := true }
  else
    { r with
      report := Function.update r.report r.reportLength c
      reportLength := (r.reportLength + 1) % 2 ^ 16
      bufferOverflow := false }

def remaining : ℕ := (r.reportLength + 2 ^ 16 - r.reportBytesSent) % 2 ^ 16

/-- The characters of `report` from `reportBytesSent` up to `bound`, sent one after the other. -/
def sendUpTo (bound : ℕ) : Option (List UInt8) :=
  byteLoop (fun i sent => sent ++ [r.report i]) bound 256 (.ofNat r.reportBytesSent) []

/-- What is passed to `radioComTxSendByte`, and the report after the call; `none` when the call
never returns. -/
def sendReportRadio (bytesToSend : UInt8) : Option (List UInt8 × Report) :=
  if r.reportLength > 0 then
    if bytesToSend.toNat > r.remaining then
      (r.sendUpTo r.reportLength).map fun sent =>
        (sent, { r with reportLength := 0, reportBytesSent := 0 })
    else
      (r.sendUpTo ((r.reportBytesSent + bytesToSend.toNat) % 2 ^ 16)).map fun sent =>
        (sent, { r with
          reportBytesSent := (r.reportBytesSent + bytesToSend.toNat) % 2 ^ 16 })
  else some ([], r)

end Report

/-- The report, the characters that `putchar` stored so far and those that were sent so far. -/
structure History where
  r : Report
  accepted : List UInt8
  sent : List UInt8

namespace History

def start (report : ℕ → UInt8) : History := ⟨⟨report, 0, 0, false⟩, [], []⟩

def call (h : History) : Call → Option History
  | .putchar c => some
      { r := h.r.putchar c
        accepted := if h.r.reportLength ≥ reportsize then h.accepted else h.accepted ++ [c]
        sent := h.sent }
  | .sendReportRadio txAvailable =>
      (h.r.sendReportRadio txAvailable).map fun (sent, r) =>
        { h with r := r, sent := h.sent ++ sent }

/-- The cursors are in bounds, and nothing is lost, sent twice or reordered. -/
structure InOrder (h : History) : Prop where
  bytesSent_le : h.r.reportBytesSent ≤ h.r.reportLength
  length_le : h.r.reportLength ≤ reportsize
  order : h.sent ++ segment h.r.report h.r.reportBytesSent h.r.reportLength = h.accepted

/-- A send does not go beyond the first 255 characters of the report. -/
def Short (h : History) : Call → Prop
  | .putchar _ => True
  | .sendReportRadio txAvailable =>
      min (h.r.reportBytesSent + txAvailable.toNat) h.r.reportLength ≤ 255

instance (h : History) (a : Call) : Decidable (h.Short a) := by
  rcases a with ⟨⟩ <;> dsimp only [Short] <;> infer_instance

theorem start_inOrder (report : ℕ → UInt8) : (start report).InOrder where
  bytesSent_le := Nat.le_refl 0
  length_le := Nat.zero_le _
  order := segment_self report

end History

namespace Report

variable {r : Report} {n : UInt8}

theorem remaining_eq (hle : r.reportBytesSent ≤ r.reportLength)
    (hsize : r.reportLength ≤ reportsize) :
    r.remaining = r.reportLength - r.reportBytesSent := by
  have hsize' : r.reportLength ≤ 1024 := hsize
  unfold remaining
  omega

theorem sendUpTo_eq {bound : ℕ} (hle : r.reportBytesSent ≤ bound) (hb : bound ≤ 255) :
    r.sendUpTo bound = some (segment r.report r.reportBytesSent bound) := by
  have hi : (UInt8.ofNat r.reportBytesSent).toNat = r.reportBytesSent := by
    rw [UInt8.toNat_ofNat']
    exact Nat.mod_eq_of_lt (by omega)
  rw [sendUpTo, byteLoop_segment r.report hb, hi]

theorem sendUpTo_eq_none {bound : ℕ} (hb : 255 < bound) : r.sendUpTo bound = none :=
  byteLoop_eq_none hb _ _

/-- A send never returns when it has to go beyond the first 255 characters. -/
theorem sendReportRadio_eq_none (hle : r.reportBytesSent ≤ r.reportLength)
    (hsize : r.reportLength ≤ reportsize)
    (hlong : 255 < min (r.reportBytesSent + n.toNat) r.reportLength) :
    r.sendReportRadio n = none := by
  have hsize' : r.reportLength ≤ 1024 := hsize
  have hn := n.toNat_lt
  have hpos : 0 < r.reportLength := by omega
  unfold sendReportRadio
  rw [if_pos hpos, remaining_eq hle hsize]
  split_ifs with hfull
  · rw [sendUpTo_eq_none (by omega)]
    rfl
  · rw [sendUpTo_eq_none (by omega)]
    rfl

end Report

namespace History.InOrder

variable {h : History} {n : UInt8}

theorem putchar (hi : h.InOrder) (c : UInt8) :
    ∃ h', h.call (.putchar c) = some h' ∧ h'.InOrder := by
  refine ⟨_, rfl, ?_⟩
  have hsize := hi.length_le
  by_cases hfull : h.r.reportLength ≥ reportsize
  · simp only [Report.putchar, if_pos hfull]
    exact ⟨hi.bytesSent_le, hsize, hi.order⟩
  · have hlt : h.r.reportLength < 1024 := Nat.not_le.mp hfull
    have hsucc : (h.r.reportLength + 1) % 2 ^ 16 = h.r.reportLength + 1 := by omega
    simp only [Report.putchar, if_neg hfull, hsucc]
    refine ⟨Nat.le_succ_of_le hi.bytesSent_le, hlt, ?_⟩
    rw [segment_update _ _ hi.bytesSent_le, ← List.append_assoc, hi.order]

theorem send_full (hi : h.InOrder) (hpos : 0 < h.r.reportLength) (hshort : h.r.reportLength ≤ 255)
    (hn : n.toNat > h.r.remaining) :
    ∃ h', h.call (.sendReportRadio n) = some h' ∧ h'.InOrder := by
  refine ⟨{ h with
    r := { h.r with reportLength := 0, reportBytesSent := 0 }
    sent := h.sent ++ segment h.r.report h.r.reportBytesSent h.r.reportLength }, ?_,
    Nat.le_refl 0, Nat.zero_le _, ?_⟩
  · rw [call, Report.sendReportRadio, if_pos hpos, if_pos hn,
      Report.sendUpTo_eq hi.bytesSent_le hshort]
    rfl
  · change (h.sent ++ segment h.r.report h.r.reportBytesSent h.r.reportLength) ++
      segment h.r.report 0 0 = h.accepted
    rw [segment_self, List.append_nil, hi.order]

theorem send_part (hi : h.InOrder) (hpos : 0 < h.r.reportLength)
    (hshort : h.r.reportBytesSent + n.toNat ≤ 255) (hn : ¬n.toNat > h.r.remaining) :
    ∃ h', h.call (.sendReportRadio n) = some h' ∧ h'.InOrder := by
  have hle := hi.bytesSent_le
  have hmod : (h.r.reportBytesSent + n.toNat) % 2 ^ 16 = h.r.reportBytesSent + n.toNat := by omega
  have hfits : h.r.reportBytesSent + n.toNat ≤ h.r.reportLength := by
    rw [Report.remaining_eq hle hi.length_le] at hn
    omega
  refine ⟨{ h with
    r := { h.r with reportBytesSent := h.r.reportBytesSent + n.toNat }
    sent := h.sent ++
      segment h.r.report h.r.reportBytesSent (h.r.reportBytesSent + n.toNat) }, ?_,
    hfits, hi.length_le, ?_⟩
  · rw [call, Report.sendReportRadio, if_pos hpos, if_neg hn, hmod,
      Report.sendUpTo_eq (Nat.le_add_right _ _) hshort]
    rfl
  · change (h.sent ++ segment h.r.report h.r.reportBytesSent (h.r.reportBytesSent + n.toNat)) ++
      segment h.r.report (h.r.reportBytesSent + n.toNat) h.r.reportLength = h.accepted
    rw [List.append_assoc, segment_append _ (Nat.le_add_right _ _) hfits, hi.order]

theorem send (hi : h.InOrder) (hshort : h.Short (.sendReportRadio n)) :
    ∃ h', h.call (.sendReportRadio n) = some h' ∧ h'.InOrder := by
  by_cases hpos : 0 < h.r.reportLength
  · have hmin : min (h.r.reportBytesSent + n.toNat) h.r.reportLength ≤ 255 := hshort
    have hrem := Report.remaining_eq hi.bytesSent_le hi.length_le
    have hle := hi.bytesSent_le
    by_cases hn : n.toNat > h.r.remaining
    · exact hi.send_full hpos (by omega) hn
    · exact hi.send_part hpos (by omega) hn
  · refine ⟨h, ?_, hi⟩
    rw [call, Report.sendReportRadio, if_neg hpos]
    exact congrArg (fun sent => some { h with sent := sent }) (List.append_nil h.sent)

/-- A call returns exactly when it is short, and then the report stays in order. -/
theorem call_isSome_iff (hi : h.InOrder) (a : Call) : (h.call a).isSome ↔ h.Short a := by
  cases a with
  | putchar c => exact iff_of_true rfl trivial
  | sendReportRadio n =>
    constructor
    · intro hsome
      by_contra hlong
      have hnone := Report.sendReportRadio_eq_none hi.bytesSent_le hi.length_le
        (Nat.not_le.mp hlong)
      rw [call, hnone] at hsome
      cases hsome
    · intro hshort
      obtain ⟨h', heq, -⟩ := hi.send hshort
      rw [heq]
      rfl

theorem step {h' : History} {a : Call} (hi : h.InOrder) (hshort : h.Short a)
    (hs : h.call a = some h') : h'.InOrder := by
  cases a with
  | putchar c =>
    obtain ⟨h'', heq, hi'⟩ := hi.putchar c
    cases heq.symm.trans hs
    exact hi'
  | sendReportRadio n =>
    obtain ⟨h'', heq, hi'⟩ := hi.send hshort
    cases heq.symm.trans hs
    exact hi'

end History.InOrder

/-- As long as no send goes beyond the first 255 characters of the report, the report is sent in
order; and it is those sends that never return. -/
theorem run_inOrder {report : ℕ → UInt8} {h : History}
    (hr : Run History.call History.Short (.start report) h) :
    h.InOrder ∧ ∀ a, (h.call a).isSome ↔ h.Short a := by
  have hi := hr.invariant (History.start_inOrder report) fun _ _ _ hi hshort hs =>
    hi.step hshort hs
  exact ⟨hi, hi.call_isSome_iff⟩

/-- Two characters, one of them sent. -/
theorem run_inOrder_two :
    ∃ h : History, (h.InOrder ∧ ∀ a, (h.call a).isSome ↔ h.Short a) ∧
      (h.accepted, h.sent, h.r.reportLength) = ([72, 105], [72], 2) := by
  have hrun : (exec History.call History.Short (.start fun _ => 0)
      [.putchar 72, .putchar 105, .sendReportRadio 1]).map
        (fun h => (h.accepted, h.sent, h.r.reportLength)) = some ([72, 105], [72], 2) := by
    decide +kernel
  obtain ⟨h, hr, hv⟩ := exists_run_of_exec hrun
  exact ⟨h, run_inOrder hr, hv⟩

/-- With 256 characters in the report, of which 255 were sent, the next send hangs. -/
theorem not_run_inOrder_of_long :
    ¬∀ (report : ℕ → UInt8) (h : History),
      Run History.call (fun _ _ => True) (.start report) h →
        h.InOrder ∧ ∀ a, (h.call a).isSome := by
  intro hall
  have hrun : (exec History.call (fun _ _ => True) (.start fun _ => 0)
      (List.replicate 256 (.putchar 0) ++ [.sendReportRadio 255])).map
        (fun h => (h.r.reportLength, h.r.reportBytesSent)) = some (256, 255) := by
    decide +kernel
  obtain ⟨h, hr, hv⟩ := exists_run_of_exec hrun
  obtain ⟨hi, hsome⟩ := hall _ h hr
  have hshort : min (h.r.reportBytesSent + 1) h.r.reportLength ≤ 255 :=
    (hi.call_isSome_iff (.sendReportRadio 1)).mp (hsome _)
  have hlength := congrArg Prod.fst hv
  have hsent := congrArg Prod.snd hv
  dsimp only at hlength hsent
  omega

end WixelSdk.WaypointReport
