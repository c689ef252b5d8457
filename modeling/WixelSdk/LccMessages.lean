import WixelSdk.LccRobot
import WixelSdk.Records
import Mathlib.Algebra.Order.BigOperators.Group.List

/-!
# The messages of the lcc robot

`radio_str.h` formats every message into a buffer of 16 characters on the stack. A text with up to
three numbers is up to 29 characters long, so the numbers decide whether it fits.
-/

namespace WixelSdk.LccRobot
open Transition Records Packet ControlMotion

abbrev bufSize : ℕ := 16

/-- `%d` -/
def decimal (v : Int16) : List Char :=
  if v < 0 then '-' :: Nat.toDigits 10 v.toInt.natAbs else Nat.toDigits 10 v.toInt.natAbs

/-- What `SendBackStr`, `SendBackStr1`, `SendBackStr2` and `SendBackStr3` write to `buf`, without the
terminator. -/
def Message.format (m : Message) : List Char :=
  m.1.toList ++ (if m.2 = [] then [] else ':' :: List.intercalate [','] (m.2.map decimal)) ++ [' ']

def Message.Fits (m : Message) : Prop := m.format.length < bufSize

instance (m : Message) : Decidable m.Fits := inferInstanceAs (Decidable (_ < _))

def width (v : Int16) : ℕ := (decimal v).length

def widths (values : List Int16) : ℕ := (values.map width).sum

theorem length_intercalate (values : List Int16) (h : values ≠ []) :
    (List.intercalate [','] (values.map decimal)).length + 1 = widths values + values.length := by
  induction values with
  | nil => exact absurd rfl h
  | cons v values ih =>
      cases values with
      | nil => simp [widths, width]
      | cons w values =>
          have ih := ih (List.cons_ne_nil w values)
          simp only [List.map_cons, List.intercalate_cons_cons, List.length_append,
            List.length_cons, List.length_nil, widths, List.sum_cons, width] at ih ⊢
          omega

/-- A colon or a comma before each number, and a space at the end. -/
theorem length_format (m : Message) :
    m.format.length = m.1.length + m.2.length + widths m.2 + 1 := by
  obtain ⟨label, values⟩ := m
  unfold Message.format
  by_cases h : values = []
  · rw [if_pos h, h]
    simp [widths, String.length_toList]
  · have hl := length_intercalate values h
    rw [if_neg h]
    simp only [List.length_append, List.length_cons, List.length_nil, String.length_toList]
    omega

theorem fits_iff (label : String) (values : List Int16) :
    Message.Fits (label, values) ↔ label.length + values.length + widths values < 15 := by
  rw [Message.Fits, length_format]
  exact Nat.add_lt_add_iff_right

theorem length_toDigits_le {n k : ℕ} (hk : 0 < k) (h : n < 10 ^ k) :
    (Nat.toDigits 10 n).length ≤ k := (Nat.length_toDigits_le_iff (by decide) hk).mpr h

theorem width_le {v : Int16} {k : ℕ} (hk : 0 < k) (h : v.toInt.natAbs < 10 ^ k) :
    width v ≤ k + 1 := by
  have hl := length_toDigits_le hk h
  unfold width decimal
  split_ifs
  · exact Nat.succ_le_succ hl
  · exact Nat.le_succ_of_le hl

theorem width_le_of_nonneg {v : Int16} {k : ℕ} (hk : 0 < k) (h₀ : 0 ≤ v.toInt)
    (h : v.toInt < 10 ^ k) : width v ≤ k := by
  have hneg : ¬ v < 0 := fun hlt => absurd (Int16.lt_iff_toInt_lt.mp hlt) (not_lt.mpr h₀)
  have habs : v.toInt.natAbs < 10 ^ k := by
    have h := h
    rw [← Int.natAbs_of_nonneg h₀] at h
    exact_mod_cast h
  rw [width, decimal, if_neg hneg]
  exact length_toDigits_le hk habs

theorem width_le_six (v : Int16) : width v ≤ 6 := by
  have hlow := v.le_toInt
  have hhigh := v.toInt_lt
  exact width_le (k := 5) (by decide) (by omega)

theorem widths_cons (v : Int16) (values : List Int16) :
    widths (v :: values) = width v + widths values := List.sum_cons

theorem widths_nil : widths [] = 0 := rfl

theorem fits_three {label : String} (h : label.length = 5) (a b c : Int16) :
    Message.Fits (label, [a, b, c]) ↔ widths [a, b, c] ≤ 6 := by
  rw [fits_iff, h]
  change 5 + 3 + _ < 15 ↔ _
  omega

/-- A text with one number fits if its label does, whatever the number. -/
theorem fits_of_label {label : String} (h : label.length ≤ 7) (v : Int16) :
    Message.Fits (label, [v]) := by
  have hv := width_le_six v
  rw [fits_iff, widths_cons, widths_nil]
  change label.length + 1 + (width v + 0) < 15
  omega

namespace Robot

variable {F : Type*} (o : FloatOps F) (s : Robot)

/-- `dist` in `GetTargetIdx` for the target `i`. -/
def distanceTo (i : ℕ) : Int32 :=
  let tgt := s.targets i
  let dx := (tgt.x - s.myrobot.x).toInt32
  let dy := (tgt.y - s.myrobot.y).toInt32
  let dx := if dx < 0 then -dx else dx
  let dy := if dy < 0 then -dy else dy
  o.toInt32 (o.sqrtf (o.ofInt32 (dx * dx + dy * dy)))

/-- The target `i` is still to be found, and closer than those before it. -/
abbrev Closer (i : ℕ) : Prop :=
  IsRecord (fun j => (s.targets j).state = .exist) (fun j => (s.distanceTo o j).toInt) 1700 i

/-- The target `i` is the first of the closest ones. -/
abbrev Closest (i : ℕ) : Prop :=
  IsNearest (fun j => (s.targets j).state = .exist) (fun j => (s.distanceTo o j).toInt) 1700
    maxTargets i

/-- The numbers are short in the debug texts of `UpdateGame` once the positions are updated. -/
def BriefSteer : Prop :=
  s.cbkG = true → s.myrobot.state = .exist →
    (∀ i < maxTargets, s.Closer o i →
      widths [(s.targets i).x, (s.targets i).y, (s.distanceTo o i).toInt16] ≤ 6) ∧
    ∀ i < maxTargets, s.Closest o i → 30 ≤ (s.distanceTo o i).toInt →
      widths [.ofNat i, (s.distanceTo o i).toInt16, s.getDiffOrientation o i] ≤ 6

instance : Decidable (s.BriefSteer o) := inferInstanceAs (Decidable (_ → _ → _ ∧ _))

def addTarget (id : UInt8) (x y r : Int16) : Robot :=
  { s with
    targets := Function.update s.targets id.toNat
      { s.targets id.toNat with state := .exist, x := x, y := y, r := r } }

/-- A packet is within the field and has short numbers where they go into a debug text. -/
def BriefGame (id : UInt8) (x y r : Int16) : Prop :=
  y ≤ 480 ∧
    (id = myId →
      (s.cbkG = true → widths [x, 480 - y, r] ≤ 6) ∧
        (s.updateRobot x (480 - y) r).BriefSteer o) ∧
    (id ≠ 0 → id ≠ myId → (s.targets id.toNat).state = .invalid →
      (s.cbkG = true → widths [id.toUInt16.toInt16, x, 480 - y] ≤ 4) ∧
        (s.addTarget id x (480 - y) r).BriefSteer o)

instance (id : UInt8) (x y r : Int16) : Decidable (s.BriefGame o id x y r) :=
  inferInstanceAs (Decidable (_ ∧ (_ → _) ∧ (_ → _ → _ → _)))

def Brief (inp : Input) : Prop :=
  let s := (s.updateMode inp).updatePacketService inp.rxByte
  inp.usbPowerPresent = false → s.cbkS = true → s.canReadPacket = true →
    s.BriefGame o s.packet.readID s.packet.readX.toInt16 s.packet.readY.toInt16
      s.packet.readR.toInt16

instance (inp : Input) : Decidable (s.Brief o inp) :=
  inferInstanceAs (Decidable (_ → _ → _ → _))

def MessagesFit : Prop := ∀ m ∈ s.sent, m.Fits

variable {o s}

theorem fit_sendBackStr (label : String) (values : List Int16) :
    (s.sendBackStr label values).MessagesFit ↔ s.MessagesFit ∧ Message.Fits (label, values) := by
  change (∀ m ∈ s.sent ++ [(label, values)], m.Fits) ↔ _
  rw [List.forall_mem_append, List.forall_mem_singleton]
  rfl

theorem fit_debug (label : String) (values : List Int16) :
    (s.debug label values).MessagesFit ↔
      s.MessagesFit ∧ (s.cbkG = true → Message.Fits (label, values)) := by
  unfold debug
  split_ifs with hg
  · rw [fit_sendBackStr, forall_prop_of_true hg]
  · exact (and_iff_left fun h => absurd h hg).symm

theorem fit_debug_of {label : String} {values : List Int16} (h : Message.Fits (label, values)) :
    (s.debug label values).MessagesFit ↔ s.MessagesFit := by
  rw [fit_debug]
  exact and_iff_left fun _ => h

theorem fits_directionText (p : Pins) : Message.Fits (directionText p, []) := by
  unfold directionText
  split_ifs <;> decide

theorem fit_moveUpdate (cmd : UInt16) (now : UInt32) :
    (s.moveUpdate cmd now).MessagesFit ↔ s.MessagesFit := by
  have hduration : ((updateDuration cmd).elim s fun ms =>
      s.debug "Dur" [ms.toUInt16.toInt16]).MessagesFit ↔ s.MessagesFit := by
    cases updateDuration cmd with
    | none => exact Iff.rfl
    | some ms => exact fit_debug_of (fits_of_label (by decide) _)
  rw [← hduration]
  unfold moveUpdate
  generalize (updateDuration cmd).elim s _ = t
  cases updateDirection cmd.toUInt8 with
  | none => exact Iff.rfl
  | some p => exact fit_debug_of (fits_directionText p)

theorem fit_robotRadioService (mybyte : UInt8) :
    (s.robotRadioService mybyte).MessagesFit ↔ s.MessagesFit := by
  have hfit : ∀ {t : Robot} {label : String}, t.sent = s.sent → Message.Fits (label, []) →
      ((t.sendBackStr label []).MessagesFit ↔ s.MessagesFit) := by
    intro t label ht h
    rw [fit_sendBackStr, MessagesFit, ht]
    exact and_iff_left h
  unfold robotRadioService
  split_ifs
  · exact hfit rfl (by decide)
  · exact hfit rfl (by decide)
  · exact Iff.rfl
  · exact Iff.rfl
  · exact hfit rfl (by decide)
  · exact hfit rfl (by decide)
  · exact Iff.rfl

theorem fit_updatePacketService (rx : Option UInt8) :
    (s.updatePacketService rx).MessagesFit ↔ s.MessagesFit := by
  unfold updatePacketService
  cases rx with
  | none => split_ifs <;> exact Iff.rfl
  | some byte =>
      dsimp only
      split_ifs
      · exact Iff.rfl
      · exact fit_robotRadioService byte
      · exact Iff.rfl
      · exact Iff.rfl

end Robot

/-! ### The field -/

structure Status.OnField (t : Status) : Prop where
  x : 0 ≤ t.x.toInt ∧ t.x.toInt < 1024
  y : -544 < t.y.toInt ∧ t.y.toInt ≤ 480

theorem toInt_toInt16 {a : UInt16} (h : a.toNat < 1024) : a.toInt16.toInt = a.toNat :=
  BitVec.toInt_eq_toNat_of_lt (by change 2 * a.toNat < 2 ^ 16; omega)

/-- `INPUT_MAX_Y - y` -/
theorem toInt_flip {y : Int16} (h : 0 ≤ y.toInt ∧ y.toInt < 1024) :
    (480 - y).toInt = 480 - y.toInt := by
  rw [Int16.toInt_sub, show (480 : Int16).toInt = 480 from rfl]
  exact Int.bmod_eq_of_le (by omega) (by omega)

theorem flip_neg_iff {y : Int16} (h : 0 ≤ y.toInt ∧ y.toInt < 1024) : 480 - y < 0 ↔ ¬ y ≤ 480 := by
  rw [Int16.lt_iff_toInt_lt, Int16.le_iff_toInt_le, toInt_flip h,
    show (480 : Int16).toInt = 480 from rfl, show (0 : Int16).toInt = 0 from rfl]
  omega

theorem toInt_sub {a b : Int16} (h : -1024 < a.toInt - b.toInt) (h' : a.toInt - b.toInt < 1024) :
    (a - b).toInt32.toInt = a.toInt - b.toInt := by
  rw [Int16.toInt_toInt32, Int16.toInt_sub]
  exact Int.bmod_eq_of_le (by omega) (by omega)

/-- The distance along an axis has up to four digits. -/
theorem width_gap {a b : Int16} (h : -1024 < a.toInt - b.toInt) (h' : a.toInt - b.toInt < 1024) :
    width (if (a - b).toInt32 < 0 then -(a - b).toInt32 else (a - b).toInt32).toInt16 ≤ 4 := by
  have hsub := toInt_sub h h'
  generalize (a - b).toInt32 = d at hsub ⊢
  have habs : (if d < 0 then -d else d).toInt = |a.toInt - b.toInt| := by
    split_ifs with hd
    · have hd := Int32.lt_iff_toInt_lt.mp hd
      rw [show (0 : Int32).toInt = 0 from rfl, hsub] at hd
      rw [Int32.toInt_neg, hsub, abs_of_neg hd]
      exact Int.bmod_eq_of_le (by omega) (by omega)
    · have hd := Int32.not_lt.mp hd
      rw [Int32.le_iff_toInt_le, show (0 : Int32).toInt = 0 from rfl, hsub] at hd
      rw [hsub, abs_of_nonneg hd]
  generalize (if d < 0 then -d else d) = e at habs ⊢
  have hlt : |a.toInt - b.toInt| < 1024 := abs_lt.mpr ⟨h, h'⟩
  have hnonneg := abs_nonneg (a.toInt - b.toInt)
  have he : e.toInt16.toInt = |a.toInt - b.toInt| := by
    rw [Int32.toInt_toInt16, habs]
    exact Int.bmod_eq_of_le (by omega) (by omega)
  refine width_le_of_nonneg (by decide) ?_ ?_ <;> rw [he]
  · exact hnonneg
  · omega

namespace Status.OnField

variable {t u : Status}

theorem width_x (h : t.OnField) : width t.x ≤ 4 :=
  width_le_of_nonneg (by decide) h.x.1 (by have := h.x.2; omega)

theorem width_y (h : t.OnField) : width t.y ≤ 4 :=
  width_le (k := 3) (by decide) (by have := h.y; omega)

theorem fits_position (h : t.OnField) : Message.Fits ("mXY", [t.x, t.y]) := by
  have hx := h.width_x
  have hy := h.width_y
  rw [fits_iff, widths_cons, widths_cons, widths_nil]
  change 3 + 2 + (width t.x + (width t.y + 0)) < 15
  omega

theorem fits_gaps (h : t.OnField) (h' : u.OnField) :
    Message.Fits ("dXY",
      [(if (t.x - u.x).toInt32 < 0 then -(t.x - u.x).toInt32 else (t.x - u.x).toInt32).toInt16,
        (if (t.y - u.y).toInt32 < 0 then -(t.y - u.y).toInt32 else (t.y - u.y).toInt32).toInt16]) := by
  have hx := width_gap (a := t.x) (b := u.x) (by have := h.x; have := h'.x; omega)
    (by have := h.x; have := h'.x; omega)
  have hy := width_gap (a := t.y) (b := u.y) (by have := h.y; have := h'.y; omega)
    (by have := h.y; have := h'.y; omega)
  rw [fits_iff, widths_cons, widths_cons, widths_nil]
  change 3 + 2 + (width _ + (width _ + 0)) < 15
  omega

end Status.OnField

namespace Robot

variable {F : Type*} {o : FloatOps F} {s : Robot}

/-- Every target and the robot are where packets placed them. -/
structure Placed (s : Robot) : Prop where
  target : ∀ i, (s.targets i).OnField
  robot : s.myrobot.OnField

/-! ### The search for the closest target -/

def searched (o : FloatOps F) (s : Robot) (n : ℕ) : Search :=
  (List.range n).foldl (s.searchTarget o) ⟨0, false, 1700, s.sent⟩

theorem searched_succ (n : ℕ) :
    s.searched o (n + 1) = s.searchTarget o (s.searched o n) n := by
  rw [searched, List.range_succ, List.foldl_append]
  rfl

/-- The messages about a target that is closer than those before it. -/
def closerMessages (o : FloatOps F) (s : Robot) (i : ℕ) : List Message :=
  let dx := ((s.targets i).x - s.myrobot.x).toInt32
  let dy := ((s.targets i).y - s.myrobot.y).toInt32
  [("mXY", [s.myrobot.x, s.myrobot.y]),
    ("dXY", [(if dx < 0 then -dx else dx).toInt16, (if dy < 0 then -dy else dy).toInt16]),
    ("tXYDt", [(s.targets i).x, (s.targets i).y, (s.distanceTo o i).toInt16])]

theorem searchTarget_of_closer {q : Search} {i : ℕ} (hexist : (s.targets i).state = .exist)
    (hd : (s.distanceTo o i).toInt < q.minDist.toInt) :
    s.searchTarget o q i =
      ⟨i, true, s.distanceTo o i,
        if s.cbkG then q.sent ++ s.closerMessages o i else q.sent⟩ := by
  rw [searchTarget, if_pos hexist]
  exact if_pos (Int32.lt_iff_toInt_lt.mpr hd)

theorem searchTarget_of_not_closer {q : Search} {i : ℕ}
    (h : ¬ ((s.targets i).state = .exist ∧ (s.distanceTo o i).toInt < q.minDist.toInt)) :
    s.searchTarget o q i = q := by
  unfold searchTarget
  by_cases hexist : (s.targets i).state = .exist
  · rw [if_pos hexist]
    exact if_neg fun hd => h ⟨hexist, Int32.lt_iff_toInt_lt.mp hd⟩
  · exact if_neg hexist

/-- What the search has found among the first `n` targets. -/
def Found (o : FloatOps F) (s : Robot) (n : ℕ) (q : Search) : Prop :=
  (q.exist = false ∧ q.minDist = 1700 ∧
    NoneNear (fun j => (s.targets j).state = .exist) (fun j => (s.distanceTo o j).toInt) 1700 n) ∨
  (q.exist = true ∧ q.minDist = s.distanceTo o q.idx ∧
    IsNearest (fun j => (s.targets j).state = .exist) (fun j => (s.distanceTo o j).toInt) 1700 n
      q.idx)

theorem Found.closer_iff {n : ℕ} {q : Search} (h : s.Found o n q) :
    s.Closer o n ↔ (s.targets n).state = .exist ∧ (s.distanceTo o n).toInt < q.minDist.toInt := by
  rcases h with ⟨-, hmin, hnone⟩ | ⟨-, hmin, hnear⟩
  · rw [hmin]
    exact hnone.record_iff
  · rw [hmin]
    exact hnear.record_iff

theorem found_searched (n : ℕ) : s.Found o n (s.searched o n) := by
  induction n with
  | zero => exact .inl ⟨rfl, rfl, fun j hj => absurd hj (Nat.not_lt_zero j)⟩
  | succ n ih =>
    rw [searched_succ]
    by_cases hcloser : s.Closer o n
    · obtain ⟨hexist, hd⟩ := ih.closer_iff.mp hcloser
      rw [searchTarget_of_closer hexist hd]
      exact .inr ⟨rfl, rfl, hcloser.nearest⟩
    · rw [searchTarget_of_not_closer fun h => hcloser (ih.closer_iff.mpr h)]
      rcases ih with ⟨hexist, hmin, hnone⟩ | ⟨hexist, hmin, hnear⟩
      · exact .inl ⟨hexist, hmin, hnone.succ hcloser⟩
      · exact .inr ⟨hexist, hmin, hnear.succ hcloser⟩

theorem fits_closerMessages (h : s.Placed) (i : ℕ) :
    (∀ m ∈ s.closerMessages o i, m.Fits) ↔
      widths [(s.targets i).x, (s.targets i).y, (s.distanceTo o i).toInt16] ≤ 6 := by
  have hpos := h.robot.fits_position
  have hgaps := (h.target i).fits_gaps h.robot
  unfold closerMessages
  rw [List.forall_mem_cons, List.forall_mem_cons, List.forall_mem_singleton, and_iff_right hpos,
    and_iff_right hgaps]
  exact fits_three rfl _ _ _

/-- The messages of the search about the first `n` targets. -/
theorem fit_searched (h : s.Placed) (hg : s.cbkG = true) (n : ℕ) :
    (∀ m ∈ (s.searched o n).sent, m.Fits) ↔ s.MessagesFit ∧ ∀ i < n, s.Closer o i →
      widths [(s.targets i).x, (s.targets i).y, (s.distanceTo o i).toInt16] ≤ 6 := by
  induction n with
  | zero => exact (and_iff_left fun i hi => absurd hi (Nat.not_lt_zero i)).symm
  | succ n ih =>
    have hfound := s.found_searched (o := o) n
    rw [searched_succ, Nat.forall_lt_succ_right, ← and_assoc, ← ih]
    by_cases hcloser : s.Closer o n
    · obtain ⟨hexist, hd⟩ := hfound.closer_iff.mp hcloser
      rw [searchTarget_of_closer hexist hd, if_pos hg, List.forall_mem_append,
        fits_closerMessages h n, forall_prop_of_true hcloser]
    · rw [searchTarget_of_not_closer fun h => hcloser (hfound.closer_iff.mpr h)]
      exact (and_iff_left fun h => absurd h hcloser).symm

theorem searched_sent_of_quiet (hg : s.cbkG = false) (n : ℕ) : (s.searched o n).sent = s.sent := by
  induction n with
  | zero => rfl
  | succ n ih =>
    have hfound := s.found_searched (o := o) n
    rw [searched_succ]
    by_cases hcloser : s.Closer o n
    · obtain ⟨hexist, hd⟩ := hfound.closer_iff.mp hcloser
      rw [searchTarget_of_closer hexist hd, if_neg (by rw [hg]; exact Bool.false_ne_true)]
      exact ih
    · rw [searchTarget_of_not_closer fun h => hcloser (hfound.closer_iff.mpr h)]
      exact ih

/-- What holds of the closest target holds of the one that the search has found. -/
theorem Found.forall_closest {q : Search} {W : ℕ → Prop} (h : s.Found o maxTargets q) :
    (∀ i < maxTargets, s.Closest o i → W i) ↔ (q.exist = true → W q.idx) := by
  rcases h with ⟨hexist, -, hnone⟩ | ⟨hexist, -, hnear⟩
  · refine iff_of_true (fun i hi hc => absurd hc.record (hnone.not_record hi)) fun h => ?_
    exact absurd (hexist.symm.trans h) Bool.false_ne_true
  · rw [forall_prop_of_true hexist]
    exact ⟨fun h => h q.idx hnear.lt hnear, fun h i _ hc => hc.unique hnear ▸ h⟩

theorem getTargetIdx_eq (o : FloatOps F) (s : Robot) : ∃ l a,
    s.getTargetIdx o = (s.searched o maxTargets, { s with sent := l, approachId := a }) := by
  unfold getTargetIdx
  dsimp only
  split_ifs with hnew
  · unfold debug
    split_ifs
    · exact ⟨_, _, rfl⟩
    · exact ⟨_, _, rfl⟩
  · exact ⟨_, _, rfl⟩

theorem fit_getTargetIdx (h : s.Placed) :
    (s.getTargetIdx o).2.MessagesFit ↔ s.MessagesFit ∧
      (s.cbkG = true → ∀ i < maxTargets, s.Closer o i →
        widths [(s.targets i).x, (s.targets i).y, (s.distanceTo o i).toInt16] ≤ 6) := by
  have hsearch : (∀ m ∈ (s.searched o maxTargets).sent, m.Fits) ↔ s.MessagesFit ∧
      (s.cbkG = true → ∀ i < maxTargets, s.Closer o i →
        widths [(s.targets i).x, (s.targets i).y, (s.distanceTo o i).toInt16] ≤ 6) := by
    by_cases hg : s.cbkG = true
    · rw [fit_searched h hg, forall_prop_of_true hg]
    · rw [searched_sent_of_quiet (Bool.eq_false_of_not_eq_true hg)]
      exact (and_iff_left fun h => absurd h hg).symm
  rw [← hsearch]
  unfold getTargetIdx
  dsimp only
  split_ifs
  · exact fit_debug_of (fits_of_label (by decide) _)
  · exact Iff.rfl

/-! ### The game -/

theorem fit_drive (degree : Int16) (distance : Int32) (now : UInt32) :
    (match rotateCommand degree with
      | some cmd => (s.moveUpdate cmd now).debug "+R" []
      | none => (s.moveUpdate (straightCommand distance) now).debug "+M" []).MessagesFit ↔
      s.MessagesFit := by
  cases rotateCommand degree with
  | none => exact (fit_debug_of (by decide)).trans (fit_moveUpdate _ _)
  | some cmd => exact (fit_debug_of (by decide)).trans (fit_moveUpdate _ _)

theorem fit_steer (h : s.Placed) (now : UInt32) :
    (s.steer o now).MessagesFit ↔ s.MessagesFit ∧ s.BriefSteer o := by
  unfold steer
  split_ifs with hstate
  · exact (and_iff_left fun _ hexist => absurd hexist hstate).symm
  have hstate := not_not.mp hstate
  have hfit := fit_getTargetIdx (o := o) h
  have hfound := s.found_searched (o := o) maxTargets
  obtain ⟨l, a, hget⟩ := s.getTargetIdx_eq o
  rw [hget] at hfit ⊢
  have hbrief : s.MessagesFit ∧ s.BriefSteer o ↔
      { s with sent := l, approachId := a }.MessagesFit ∧ (s.cbkG = true →
        (s.searched o maxTargets).exist = true →
          30 ≤ (s.distanceTo o (s.searched o maxTargets).idx).toInt →
            widths [.ofNat (s.searched o maxTargets).idx,
              (s.distanceTo o (s.searched o maxTargets).idx).toInt16,
              s.getDiffOrientation o (s.searched o maxTargets).idx] ≤ 6) := by
    rw [hfit, BriefSteer, forall_prop_of_true hstate, hfound.forall_closest, and_assoc, imp_and]
  rw [hbrief]
  generalize s.searched o maxTargets = q at hfound ⊢
  dsimp only
  split_ifs with hexist hclose
  · rw [fit_debug_of (by decide), hexist]
    exact (and_iff_left fun _ h => absurd h Bool.false_ne_true).symm
  · obtain ⟨-, hmin, -⟩ := hfound.resolve_left fun h => hexist h.1
    have hclose := Int32.lt_iff_toInt_lt.mp hclose
    rw [hmin] at hclose
    refine (fit_sendBackStr _ _).trans (and_congr ((fit_sendBackStr _ _).trans ?_) ?_)
    · exact and_iff_left (by decide)
    · exact iff_of_true (fits_of_label (by decide) _) fun _ _ hfar => absurd hclose (not_lt.mpr hfar)
  · obtain ⟨htrue, hmin, -⟩ := hfound.resolve_left fun h => hexist h.1
    have hfar : 30 ≤ q.minDist.toInt := Int32.le_iff_toInt_le.mp (Int32.not_lt.mp hclose)
    rw [forall_prop_of_true htrue, ← hmin, forall_prop_of_true hfar]
    refine (fit_drive _ _ _).trans ((fit_debug _ _).trans ?_)
    exact and_congr_right fun _ => imp_congr_right fun _ => fits_three rfl _ _ _

theorem debug_eq (s : Robot) (label : String) (values : List Int16) :
    ∃ l, s.debug label values = { s with sent := l } := by
  unfold debug
  split_ifs
  · exact ⟨_, rfl⟩
  · exact ⟨_, rfl⟩

theorem briefSteer_debug (label : String) (values : List Int16) :
    (s.debug label values).BriefSteer o ↔ s.BriefSteer o := by
  obtain ⟨l, hl⟩ := s.debug_eq label values
  rw [hl]
  exact Iff.rfl

theorem Placed.debug (h : s.Placed) (label : String) (values : List Int16) :
    (s.debug label values).Placed := by
  obtain ⟨l, hl⟩ := s.debug_eq label values
  rw [hl]
  exact ⟨h.target, h.robot⟩

theorem Placed.updateRobot (h : s.Placed) {x y r : Int16}
    (hp : Status.OnField { s.myrobot with state := .exist, x := x, y := y, r := r }) :
    (s.updateRobot x y r).Placed := ⟨h.target, hp⟩

theorem Placed.addTarget (h : s.Placed) {id : UInt8} {x y r : Int16}
    (hp : Status.OnField { s.targets id.toNat with state := .exist, x := x, y := y, r := r }) :
    (s.addTarget id x y r).Placed := by
  refine ⟨fun i => ?_, h.robot⟩
  change (Function.update s.targets id.toNat _ i).OnField
  rw [Function.update_apply]
  split_ifs
  · exact hp
  · exact h.target i

theorem onField_flip (t : Status) {x y : Int16} (hx : 0 ≤ x.toInt ∧ x.toInt < 1024)
    (hy : 0 ≤ y.toInt ∧ y.toInt < 1024) (r : Int16) :
    Status.OnField { t with state := .exist, x := x, y := 480 - y, r := r } := by
  refine ⟨hx, ?_⟩
  dsimp only
  rw [toInt_flip hy]
  omega

theorem updateTargets_eq {id : UInt8} (hid : id.toNat < maxTargets) (x y r : Int16) :
    s.updateTargets id x y r =
      match (s.targets id.toNat).state with
      | .invalid => (true, (s.addTarget id x y r).debug "UTgtIXY" [id.toUInt16.toInt16, x, y])
      | .exist => (false, s.debug "UTgtExt" [])
      | .found => (false, s) := by
  rw [updateTargets, if_neg (Nat.not_le.mpr hid)]
  rfl

/-- A packet of a target. -/
theorem fit_targetPacket (h : s.Placed) {id : UInt8} {x y : Int16} (hid : id.toNat < maxTargets)
    (hx : 0 ≤ x.toInt ∧ x.toInt < 1024) (hy : 0 ≤ y.toInt ∧ y.toInt < 1024) (r : Int16)
    (now : UInt32) :
    (if (s.updateTargets id x (480 - y) r).1 then (s.updateTargets id x (480 - y) r).2.steer o now
      else (s.updateTargets id x (480 - y) r).2).MessagesFit ↔
      s.MessagesFit ∧ ((s.targets id.toNat).state = .invalid →
        (s.cbkG = true → widths [id.toUInt16.toInt16, x, 480 - y] ≤ 4) ∧
          (s.addTarget id x (480 - y) r).BriefSteer o) := by
  rw [updateTargets_eq hid]
  cases (s.targets id.toNat).state with
  | invalid =>
      have hplaced := h.addTarget (onField_flip (s.targets id.toNat) hx hy r)
      have hlabel : Message.Fits ("UTgtIXY", [id.toUInt16.toInt16, x, 480 - y]) ↔
          widths [id.toUInt16.toInt16, x, 480 - y] ≤ 4 := by
        rw [fits_iff]
        change 7 + 3 + _ < 15 ↔ _
        omega
      dsimp only
      rw [if_pos rfl, fit_steer (hplaced.debug _ _), briefSteer_debug, fit_debug, hlabel, and_assoc,
        forall_prop_of_true rfl]
      exact Iff.rfl
  | exist =>
      refine (fit_debug_of (by decide)).trans (and_iff_left fun h => ?_).symm
      cases h
  | found =>
      refine (and_iff_left fun h => ?_).symm
      cases h

/-- A packet of the robot itself. -/
theorem fit_robotPacket (h : s.Placed) {x y : Int16} (hx : 0 ≤ x.toInt ∧ x.toInt < 1024)
    (hy : 0 ≤ y.toInt ∧ y.toInt < 1024) (r : Int16) (t₀ now : UInt32) :
    (({ s.updateRobot x (480 - y) r with shwT0 := t₀ }.debug "RbXYR" [x, 480 - y, r]).steer o
      now).MessagesFit ↔
      s.MessagesFit ∧ (s.cbkG = true → widths [x, 480 - y, r] ≤ 6) ∧
        (s.updateRobot x (480 - y) r).BriefSteer o := by
  have hrobot := h.updateRobot (onField_flip s.myrobot hx hy r)
  have hplaced : { s.updateRobot x (480 - y) r with shwT0 := t₀ }.Placed :=
    ⟨hrobot.target, hrobot.robot⟩
  rw [fit_steer (hplaced.debug _ _), briefSteer_debug, fit_debug, fits_three rfl, and_assoc]
  exact Iff.rfl

/-- The first messages of `UpdateGame`. -/
theorem fit_greeting {y : Int16} (hy : 0 ≤ y.toInt ∧ y.toInt < 1024) : ∃ l,
    (if 480 - y < 0 then (s.debug "\n" []).sendBackStr "\n --- WIERD COORDINATE Y ---\n" []
      else s.debug "\n" []) = { s with sent := l } ∧
    ({ s with sent := l }.MessagesFit ↔ s.MessagesFit ∧ y ≤ 480) := by
  obtain ⟨l, hl⟩ := s.debug_eq "\n" []
  have hfit : (s.debug "\n" []).MessagesFit ↔ s.MessagesFit := fit_debug_of (by decide)
  by_cases hneg : 480 - y < 0
  · have hlong : ¬ Message.Fits ("\n --- WIERD COORDINATE Y ---\n", []) := by decide
    rw [hl] at hfit ⊢
    refine ⟨_, if_pos hneg, (fit_sendBackStr _ _).trans (and_congr hfit ?_)⟩
    exact iff_of_false hlong ((flip_neg_iff hy).mp hneg)
  · rw [hl] at hfit ⊢
    refine ⟨l, if_neg hneg, hfit.trans (and_iff_left ?_).symm⟩
    exact not_not.mp fun h => hneg ((flip_neg_iff hy).mpr h)

theorem fit_updateGame (h : s.Placed) {id : UInt8} {x y : Int16} (hid : id.toNat < maxTargets)
    (hx : 0 ≤ x.toInt ∧ x.toInt < 1024) (hy : 0 ≤ y.toInt ∧ y.toInt < 1024) (r : Int16)
    (inp : Input) :
    (s.updateGame o id x y r inp).MessagesFit ↔ s.MessagesFit ∧ s.BriefGame o id x y r := by
  obtain ⟨l, hl, hfit⟩ := fit_greeting (s := s) hy
  have hplaced : { s with sent := l }.Placed := ⟨h.target, h.robot⟩
  unfold updateGame BriefGame
  dsimp only
  rw [hl, ← and_assoc, ← hfit]
  by_cases hzero : id = 0
  · have hmyId : id ≠ myId := by rw [hzero]; decide
    rw [if_pos hzero]
    exact (and_iff_left ⟨fun h => absurd h hmyId, fun h => absurd hzero h⟩).symm
  rw [if_neg hzero]
  by_cases hmine : id = myId
  · rw [if_pos hmine, forall_prop_of_true hmine, and_iff_left fun _ h => absurd hmine h]
    exact fit_robotPacket hplaced hx hy r _ _
  · rw [if_neg hmine, and_iff_right fun h => absurd h hmine, forall_prop_of_true hzero,
      forall_prop_of_true hmine]
    exact fit_targetPacket hplaced hid hx hy r _

/-! ### The positions stay on the field -/

theorem Placed.of_eq {t : Robot} (h : s.Placed) (htargets : t.targets = s.targets)
    (hrobot : t.myrobot = s.myrobot) : t.Placed :=
  ⟨fun i => by rw [htargets]; exact h.target i, by rw [hrobot]; exact h.robot⟩

theorem Placed.moveUpdate (h : s.Placed) (cmd : UInt16) (now : UInt32) :
    (s.moveUpdate cmd now).Placed := by
  have hduration : ((updateDuration cmd).elim s fun ms =>
      s.debug "Dur" [ms.toUInt16.toInt16]).Placed := by
    cases updateDuration cmd with
    | none => exact h
    | some ms => exact h.debug _ _
  unfold Robot.moveUpdate
  generalize (updateDuration cmd).elim s _ = t at hduration ⊢
  cases updateDirection cmd.toUInt8 with
  | none => exact ⟨hduration.target, hduration.robot⟩
  | some p => exact ⟨(hduration.debug _ _).target, (hduration.debug _ _).robot⟩

theorem Placed.updatePacketService (h : s.Placed) (rx : Option UInt8) :
    (s.updatePacketService rx).Placed := by
  have hbyte : ∀ byte, (s.robotRadioService byte).Placed := by
    intro byte
    unfold robotRadioService
    split_ifs <;> exact h.of_eq rfl rfl
  unfold Robot.updatePacketService
  cases rx with
  | none => split_ifs <;> exact h.of_eq rfl rfl
  | some byte =>
      dsimp only
      split_ifs
      · exact h.of_eq rfl rfl
      · exact hbyte byte
      · exact h.of_eq rfl rfl
      · exact h.of_eq rfl rfl

theorem Placed.steer (h : s.Placed) (now : UInt32) : (s.steer o now).Placed := by
  unfold Robot.steer
  split_ifs with hstate
  · exact h
  obtain ⟨l, a, hget⟩ := s.getTargetIdx_eq o
  rw [hget]
  generalize s.searched o maxTargets = q
  have hplaced : { s with sent := l, approachId := a }.Placed := h.of_eq rfl rfl
  dsimp only
  split_ifs with hexist hclose
  · exact hplaced.debug _ _
  · refine ⟨fun i => ?_, h.robot⟩
    change (Function.update s.targets q.idx _ i).OnField
    rw [Function.update_apply]
    split_ifs
    · exact ⟨(h.target q.idx).x, (h.target q.idx).y⟩
    · exact h.target i
  · split
    · exact ((hplaced.debug _ _).moveUpdate _ _).debug _ _
    · exact ((hplaced.debug _ _).moveUpdate _ _).debug _ _

theorem Placed.targetPacket (h : s.Placed) {id : UInt8} {x y : Int16}
    (hid : id.toNat < maxTargets) (hx : 0 ≤ x.toInt ∧ x.toInt < 1024)
    (hy : 0 ≤ y.toInt ∧ y.toInt < 1024) (r : Int16) (now : UInt32) :
    (if (s.updateTargets id x (480 - y) r).1 then (s.updateTargets id x (480 - y) r).2.steer o now
      else (s.updateTargets id x (480 - y) r).2).Placed := by
  rw [updateTargets_eq hid]
  cases (s.targets id.toNat).state with
  | invalid =>
      have hplaced := h.addTarget (onField_flip (s.targets id.toNat) hx hy r)
      exact (hplaced.debug _ _).steer now
  | exist => exact h.debug _ _
  | found => exact h

theorem Placed.updateGame (h : s.Placed) {id : UInt8} {x y : Int16} (hid : id.toNat < maxTargets)
    (hx : 0 ≤ x.toInt ∧ x.toInt < 1024) (hy : 0 ≤ y.toInt ∧ y.toInt < 1024) (r : Int16)
    (inp : Input) : (s.updateGame o id x y r inp).Placed := by
  obtain ⟨l, hl, -⟩ := fit_greeting (s := s) hy
  have hplaced : { s with sent := l }.Placed := h.of_eq rfl rfl
  unfold Robot.updateGame
  dsimp only
  rw [hl]
  by_cases hzero : id = 0
  · rw [if_pos hzero]
    exact hplaced
  rw [if_neg hzero]
  by_cases hmine : id = myId
  · rw [if_pos hmine]
    have hrobot := hplaced.updateRobot (onField_flip s.myrobot hx hy r)
    have hshadow : { Robot.updateRobot { s with sent := l } x (480 - y) r with
      shwT0 := inp.robotTime }.Placed := hrobot.of_eq rfl rfl
    exact (hshadow.debug _ _).steer _
  · rw [if_neg hmine]
    exact hplaced.targetPacket hid hx hy r _

/-! ### Iterations -/

theorem readX_onField (mypacket : QTuple) :
    0 ≤ mypacket.readX.toInt16.toInt ∧ mypacket.readX.toInt16.toInt < 1024 := by
  have h := mypacket.readX_lt
  rw [toInt_toInt16 h]
  omega

theorem readY_onField (mypacket : QTuple) :
    0 ≤ mypacket.readY.toInt16.toInt ∧ mypacket.readY.toInt16.toInt < 1024 := by
  have h := mypacket.readY_lt
  rw [toInt_toInt16 h]
  omega

theorem fit_readPacket (h : s.Placed) (inp : Input) :
    (s.readPacket o inp).MessagesFit ↔ s.MessagesFit ∧ (s.canReadPacket = true →
      s.BriefGame o s.packet.readID s.packet.readX.toInt16 s.packet.readY.toInt16
        s.packet.readR.toInt16) := by
  unfold readPacket
  split_ifs with hread
  · rw [forall_prop_of_true hread]
    exact fit_updateGame h s.packet.readID_lt (readX_onField _) (readY_onField _) _ inp
  · exact (and_iff_left fun h => absurd h hread).symm

theorem Placed.readPacket (h : s.Placed) (inp : Input) : (s.readPacket o inp).Placed := by
  unfold Robot.readPacket
  split_ifs
  · exact (h.updateGame s.packet.readID_lt (readX_onField _) (readY_onField _) _ inp).of_eq rfl rfl
  · exact h

/-- The messages of an iteration besides those about a packet fit. -/
theorem fit_fire (inp : Input) :
    (s.fire o inp).MessagesFit ↔ (s.readPacket o inp).MessagesFit := by
  have hshadow : ∀ t : Robot, (t.forceShadowMove inp).MessagesFit ↔ t.MessagesFit := by
    intro t
    unfold forceShadowMove
    split_ifs
    · exact fit_moveUpdate _ inp.shadowMoveTime
    · exact Iff.rfl
  have hdebug : ∀ t : Robot, (t.debugMove inp).MessagesFit ↔ t.MessagesFit := by
    intro t
    unfold debugMove
    split_ifs
    · exact fit_moveUpdate _ inp.debugTime
    · exact Iff.rfl
  exact (hdebug _).trans ((hshadow _).trans (fit_moveUpdate _ _))

theorem Placed.forceShadowMove (h : s.Placed) (inp : Input) : (s.forceShadowMove inp).Placed := by
  unfold Robot.forceShadowMove
  split_ifs
  · have hmoved := h.moveUpdate (Move.dur2 ||| Move.bwrd) inp.shadowMoveTime
    exact ⟨hmoved.target, hmoved.robot⟩
  · exact h

theorem Placed.debugMove (h : s.Placed) (inp : Input) : (s.debugMove inp).Placed := by
  unfold Robot.debugMove
  split_ifs
  · have hmoved := h.moveUpdate (Move.dur1 ||| Move.fwrd) inp.debugTime
    exact ⟨hmoved.target, hmoved.robot⟩
  · exact h

theorem Placed.fire (h : s.Placed) (inp : Input) : (s.fire o inp).Placed := by
  have hmoved := (h.readPacket (o := o) inp).moveUpdate Move.updt inp.pollTime
  have hshadow := hmoved.forceShadowMove inp
  have hflag : { ((s.readPacket o inp).moveUpdate Move.updt inp.pollTime).forceShadowMove inp with
    cbkF := false }.Placed := ⟨hshadow.target, hshadow.robot⟩
  exact hflag.debugMove inp

theorem currentMode_updateMode (s : Robot) (inp : Input) :
    (s.updateMode inp).currentMode = .untethered ↔ inp.usbPowerPresent = false := by
  unfold updateMode
  cases inp.usbPowerPresent <;> simp

theorem fit_iteration {t : Robot} {inp : Input} (h : s.Placed) (ht : s.iteration o inp = some t) :
    t.MessagesFit ↔ s.MessagesFit ∧ s.Brief o inp := by
  obtain rfl := Option.some.inj ht
  have hmode := s.currentMode_updateMode inp
  have hplaced : ((s.updateMode inp).updatePacketService inp.rxByte).Placed :=
    (h.of_eq (t := s.updateMode inp) rfl rfl).updatePacketService _
  have hstart : (s.updateMode inp).MessagesFit ↔ s.MessagesFit := Iff.rfl
  change ((s.updateMode inp).service o inp).MessagesFit ↔ _
  unfold Brief service
  generalize s.updateMode inp = u at *
  cases hu : u.currentMode with
  | tethered =>
      have husb : inp.usbPowerPresent ≠ false := fun h => by cases hu.symm.trans (hmode.mpr h)
      exact hstart.trans (and_iff_left fun h => absurd h husb).symm
  | untethered =>
      have husb := hmode.mp hu
      dsimp only
      unfold untethered
      dsimp only
      rw [forall_prop_of_true husb, ← hstart, ← fit_updatePacketService (s := u) inp.rxByte]
      split_ifs with hs
      · exact (and_iff_left fun h => absurd (hs.symm.trans h) Bool.false_ne_true).symm
      · rw [fit_fire, fit_readPacket hplaced, forall_prop_of_true (Bool.eq_true_of_not_eq_false hs)]

theorem Placed.step {t : Robot} {inp : Input} (h : s.Placed) (ht : s.iteration o inp = some t) :
    t.Placed := by
  obtain rfl := Option.some.inj ht
  have hplaced : (s.updateMode inp).Placed := h.of_eq rfl rfl
  suffices h : ((s.updateMode inp).service o inp).Placed from h.of_eq rfl rfl
  unfold service
  split
  · exact hplaced
  · unfold untethered
    dsimp only
    split_ifs
    · exact hplaced.updatePacketService _
    · exact (hplaced.updatePacketService _).fire _

theorem placed_powerUp : powerUp.Placed := by
  have horigin : ∀ {t : Status}, t.x = 0 → t.y = 0 → t.OnField := fun hx hy =>
    ⟨by rw [hx]; decide, by rw [hy]; decide⟩
  exact ⟨fun _ => horigin rfl rfl, horigin rfl rfl⟩

/-- In every run whose packets are brief all messages fit, and the messages of the next iteration fit
if and only if its packet is brief too. -/
theorem messages_fit_iff (hr : Run (iteration o) (Brief o) powerUp s) :
    s.MessagesFit ∧ ∀ inp t, s.iteration o inp = some t → (t.MessagesFit ↔ s.Brief o inp) := by
  have h : s.MessagesFit ∧ s.Placed := by
    refine Run.invariant (I := fun s => s.MessagesFit ∧ s.Placed) hr
      ⟨fun m hm => absurd hm List.not_mem_nil, placed_powerUp⟩ fun s inp t h hbrief ht => ?_
    exact ⟨(fit_iteration h.2 ht).mpr ⟨h.1, hbrief⟩, h.2.step ht⟩
  refine ⟨h.1, fun inp t ht => ?_⟩
  rw [fit_iteration h.2 ht]
  exact and_iff_right h.1

/-- The robot at (5, 50) and a target at (9, 30). -/
theorem messages_fit_nearby : ∃ s : Robot, (s.targets 1).state = .found ∧ s.MessagesFit := by
  have hrun : (exec (iteration .onAxis) (Brief .onAxis) powerUp
      ((([0x73, 0xFC, 0xED, 0x70, 0x0A, 0x5A] : List UInt8).map some ++ none ::
        ([0xFC, 0x2E, 0x10, 0x12, 0x00] : List UInt8).map some ++ [none]).map (atTime 10 false))).map
      (fun s => (s.targets 1).state) = some .found := by decide +kernel
  obtain ⟨s, hr, hs⟩ := exists_run_of_exec hrun
  exact ⟨s, hs, (messages_fit_iff hr).1⟩

instance : Decidable s.MessagesFit := inferInstanceAs (Decidable (∀ m ∈ s.sent, m.Fits))

/-- The robot at (512, 240) with a rotation of 90: `RbXYR:512,240,90 ` has 17 characters. -/
theorem messages_overflow :
    ¬ ∀ s, Run (iteration .onAxis) (fun _ _ => True) powerUp s → s.MessagesFit := by
  intro hall
  have hrun : (exec (iteration .onAxis) (fun _ _ => True) powerUp
      ((([0x73, 0xFC, 0xE7, 0x84, 0x00, 0x5A] : List UInt8).map some ++ [none]).map
        (atTime 10 false))).map
      (fun s => decide s.MessagesFit) = some false := by decide +kernel
  obtain ⟨s, hr, hs⟩ := exists_run_of_exec hrun
  exact of_decide_eq_false hs (hall s hr)

end Robot

end WixelSdk.LccRobot
