import WixelSdk.FloatOps
import WixelSdk.Packet
import WixelSdk.WaypointReport
import Mathlib.Data.List.Basic

/-!
# The waypoint navigator

`robotRadioService` of `waypointnav.c`, which the main loop calls while USB is unplugged. Until five
tags are recorded, packets are taken as tags to visit; from then on the robot's own packets say where
it is, and it drives to one tag after the other.
-/

namespace WixelSdk.WaypointNav
open Transition Packet WaypointReport

abbrev numWaypoints : ℕ := 5

abbrev robotID : UInt8 := 11

inductive Motion
  | brake
  | forward
  | left
  | right
  deriving DecidableEq, Repr

/-- The variables, with the last motor command, the bytes received so far, the robot packets processed
so far and their times, the indices into `tagIDs` and `TagGoal` so far, and the time of the last
movement decision. -/
structure Nav where
  i : ℕ
  packet : QTuple
  readstate : Bool
  initStage : Bool
  readySignal : Bool
  lastpacketRobot : UInt32
  tagRobot : QTuple
  tagGoal : ℕ → QTuple
  tagIDs : ℕ → UInt8
  tagCount : ℕ
  report : Report
  motion : Motion
  received : List UInt8
  robotPackets : List (UInt32 × QTuple)
  indices : List ℕ
  clock : UInt32

/-- What `radioComTxAvailable`, `radioComRxAvailable` with `radioComRxReceiveByte`, and the two calls
of `getMs` return. -/
structure Input where
  txAvailable : UInt8
  rxByte : Option UInt8
  packetTime : UInt32
  decisionTime : UInt32

def printf (r : Report) (before : String) (tag : UInt8) (after : String) : Report :=
  (before.toList ++ (Nat.toDigits 10 tag.toNat ++ after.toList)).foldl
    (fun r c => r.putchar (.ofNat c.toNat)) r

namespace Nav

variable {F : Type*} (o : FloatOps F) (s : Nav)

def idle : Option UInt8 → Nav
  | none => s
  | some mybyte =>
    let t := { s with received := s.received ++ [mybyte] }
    if checkHeader mybyte then
      { t with i := 0, packet := s.packet.store 0 mybyte, readstate := true }
    else if mybyte = 0x67 then { t with readySignal := true }
    else t

def collect (h : s.i + 1 < qTupleSize) : Option UInt8 → Nav
  | none => s
  | some byte =>
    { s with
      packet := s.packet.store ⟨s.i + 1, h⟩ byte
      i := s.i + 1
      received := s.received ++ [byte] }

def tagExists : Bool := (List.range numWaypoints).any fun iter => s.tagIDs iter == s.packet.readID

def addTag : Nav :=
  { s with
    tagIDs := Function.update s.tagIDs s.tagCount s.packet.readID
    tagGoal := Function.update s.tagGoal s.tagCount s.packet
    indices := s.indices ++ [s.tagCount]
    tagCount := s.tagCount + 1 }

def endInitStage : Nav :=
  { s with
    initStage := false
    tagCount := 0
    report := printf s.report "Initialization complete. Seeking tag " (s.tagIDs 0) " \n\r"
    indices := s.indices ++ [0] }

def initPacket : Nav :=
  if s.packet.readID ≠ robotID then
    let t := { s with indices := s.indices ++ List.range numWaypoints }
    if t.tagExists then t
    else if t.addTag.tagCount > 4 then t.addTag.endInitStage
    else t.addTag
  else s

def robotPacket (now : UInt32) : Nav :=
  if s.packet.readID = robotID then
    { s with
      lastpacketRobot := now
      tagRobot := s.packet
      robotPackets := s.robotPackets ++ [(now, s.packet)] }
  else s

def packetHandling (rxByte : Option UInt8) (now : UInt32) : Nav :=
  if s.readstate = false then s.idle rxByte
  else if h : s.i + 1 < qTupleSize then s.collect h rxByte
  else
    let t := { s with readstate := false, i := 0 }
    if s.initStage then t.initPacket else t.robotPacket now

/-- The robot brakes without looking at the position. -/
def Halted (now : UInt32) : Prop :=
  s.initStage = true ∨ (now - s.lastpacketRobot > 500 ∨ s.readySignal = false) ∨
    s.tagCount > numWaypoints - 1

instance (now : UInt32) : Decidable (s.Halted now) :=
  inferInstanceAs (Decidable (_ ∨ (_ ∨ _) ∨ _))

def movementHandling (now : UInt32) : Nav :=
  if s.Halted now then { s with motion := .brake }
  else
    let goal := s.tagGoal s.tagCount
    let goalAngle := o.calculateAngle s.tagRobot.readX s.tagRobot.readY goal.readX goal.readY
    let diffAngle := o.computeTurn (o.ofUInt16 s.tagRobot.readR) goalAngle
    let turndir := o.turnDirection (o.ofUInt16 s.tagRobot.readR) goalAngle
    let t := { s with indices := s.indices ++ [s.tagCount] }
    if o.lt (o.distance s.tagRobot.readX s.tagRobot.readY goal.readX goal.readY) (o.ofNat 50) then
      { t with
        motion := .brake
        report := printf s.report "Reached tag " (s.tagIDs s.tagCount) ". \n\r"
        tagCount := s.tagCount + 1 }
    else if o.lt (o.fabsf diffAngle) (o.ofNat 45) then { t with motion := .forward }
    else if turndir = false then { t with motion := .left }
    else { t with motion := .right }

/-- `none` when `sendReportRadio` never returns. -/
def robotRadioService (inp : Input) : Option Nav :=
  (s.report.sendReportRadio inp.txAvailable).map fun (_, report) =>
    { (({ s with report := report }.packetHandling inp.rxByte inp.packetTime).movementHandling o
        inp.decisionTime) with clock := inp.decisionTime }

/-- `getMs` does not wrap. -/
def Timed (inp : Input) : Prop :=
  s.clock ≤ inp.packetTime ∧ inp.packetTime ≤ inp.decisionTime

instance (inp : Input) : Decidable (s.Timed inp) := inferInstanceAs (Decidable (_ ∧ _))

/-- The static variables, and what `main` writes to them. -/
def powerUp : Nav where
  i := 0
  packet := ⟨fun _ => 0⟩
  readstate := false
  initStage := true
  readySignal := false
  lastpacketRobot := 0
  tagRobot := ⟨fun _ => 0⟩
  tagGoal := fun _ => ⟨fun _ => 0⟩
  tagIDs := fun _ => 255
  tagCount := 0
  report := ⟨fun _ => 0, 0, 0, false⟩
  motion := .brake
  received := []
  robotPackets := []
  indices := []
  clock := 0

/-! ### The mission -/

theorem readID_ne_255 (p : QTuple) : p.readID ≠ 255 := by
  intro h
  have hlt := p.readID_lt
  rw [h] at hlt
  exact absurd hlt (by decide)

/-- The first `n` tags are recorded. -/
structure Records (ids : ℕ → UInt8) (goals : ℕ → QTuple) (n : ℕ) : Prop where
  recorded : ∀ k, ids k ≠ 255 ↔ k < n
  goal : ∀ k, ids k ≠ 255 → ids k ≠ robotID ∧ (goals k).readID = ids k
  distinct : ∀ j k, ids j ≠ 255 → ids j = ids k → j = k

theorem Records.add {ids : ℕ → UInt8} {goals : ℕ → QTuple} {n : ℕ} {p : QTuple}
    (h : Records ids goals n) (hp : p.readID ≠ robotID) (hnew : ∀ k < n, ids k ≠ p.readID) :
    Records (Function.update ids n p.readID) (Function.update goals n p) (n + 1) where
  recorded k := by
    by_cases hk : k = n
    · subst hk
      rw [Function.update_self]
      exact iff_of_true (readID_ne_255 p) (Nat.lt_succ_self k)
    · rw [Function.update_of_ne hk, h.recorded]
      omega
  goal k := by
    by_cases hk : k = n
    · subst hk
      rw [Function.update_self, Function.update_self]
      exact fun _ => ⟨hp, rfl⟩
    · rw [Function.update_of_ne hk, Function.update_of_ne hk]
      exact h.goal k
  distinct j k hj he := by
    by_cases hjn : j = n <;> by_cases hkn : k = n
    · exact hjn.trans hkn.symm
    · subst hjn
      rw [Function.update_self, Function.update_of_ne hkn] at he
      have hk : k < j := (h.recorded k).mp (he ▸ readID_ne_255 p)
      exact absurd he.symm (hnew k hk)
    · subst hkn
      rw [Function.update_self, Function.update_of_ne hjn] at he
      rw [Function.update_of_ne hjn] at hj
      exact absurd he (hnew j ((h.recorded j).mp hj))
    · rw [Function.update_of_ne hjn] at hj he
      rw [Function.update_of_ne hkn] at he
      exact h.distinct j k hj he

theorem bounded_append {l l' : List ℕ} (hl : ∀ k ∈ l, k < numWaypoints)
    (hl' : ∀ k ∈ l', k < numWaypoints) : ∀ k ∈ l ++ l', k < numWaypoints := by
  intro k hk
  exact (List.mem_append.mp hk).elim (hl k) (hl' k)

theorem bounded_snoc {l : List ℕ} {i : ℕ} (hl : ∀ k ∈ l, k < numWaypoints)
    (hi : i < numWaypoints) : ∀ k ∈ l ++ [i], k < numWaypoints := by
  refine bounded_append hl fun k hk => ?_
  rw [List.mem_singleton.mp hk]
  exact hi

structure Mission (s : Nav) : Prop where
  indices : ∀ k ∈ s.indices, k < numWaypoints
  count : s.tagCount ≤ numWaypoints
  seeking : s.initStage = true → s.tagCount < numWaypoints ∧ Records s.tagIDs s.tagGoal s.tagCount
  found : s.initStage = false → Records s.tagIDs s.tagGoal numWaypoints

variable {o s} {t : Nav} {inp : Input}

theorem mission_powerUp : powerUp.Mission where
  indices _ hk := nomatch hk
  count := Nat.zero_le _
  seeking _ := ⟨Nat.zero_lt_succ _, fun k => iff_of_false (fun h => h rfl) (Nat.not_lt_zero k),
    fun _ h => absurd rfl h, fun _ _ h => absurd rfl h⟩
  found h := nomatch h

namespace Mission

variable (h : s.Mission)
include h

theorem records : ∃ n ≤ numWaypoints, Records s.tagIDs s.tagGoal n := by
  cases hinit : s.initStage with
  | true => exact ⟨s.tagCount, h.count, (h.seeking hinit).2⟩
  | false => exact ⟨numWaypoints, Nat.le_refl _, h.found hinit⟩

/-- Only the fields of the mission matter. -/
theorem congr (hids : t.tagIDs = s.tagIDs) (hgoal : t.tagGoal = s.tagGoal)
    (hcount : t.tagCount = s.tagCount) (hinit : t.initStage = s.initStage)
    (hindices : ∀ k ∈ t.indices, k < numWaypoints) : t.Mission := by
  refine ⟨hindices, ?_, ?_, ?_⟩
  · rw [hcount]
    exact h.count
  · rw [hinit, hcount, hids, hgoal]
    exact h.seeking
  · rw [hinit, hids, hgoal]
    exact h.found

theorem idle (rx : Option UInt8) : (s.idle rx).Mission := by
  cases rx with
  | none => exact h
  | some b =>
      dsimp only [Nav.idle]
      split_ifs <;> exact h.congr rfl rfl rfl rfl h.indices

theorem collect (hi : s.i + 1 < qTupleSize) (rx : Option UInt8) : (s.collect hi rx).Mission := by
  cases rx with
  | none => exact h
  | some b => exact h.congr rfl rfl rfl rfl h.indices

omit h in
theorem ne_readID_of_tagExists (hx : ¬ s.tagExists = true) {k : ℕ} (hk : k < numWaypoints) :
    s.tagIDs k ≠ s.packet.readID := by
  intro he
  exact hx (List.any_eq_true.mpr ⟨k, List.mem_range.mpr hk, beq_iff_eq.mpr he⟩)

theorem initPacket (hinit : s.initStage = true) : s.initPacket.Mission := by
  obtain ⟨hcount, hrecords⟩ := h.seeking hinit
  unfold Nav.initPacket
  split_ifs with hid
  · have hrange := bounded_append h.indices fun k => List.mem_range.mp
    have hindices := bounded_snoc hrange hcount
    dsimp only
    split_ifs with hexists hfull
    · exact h.congr rfl rfl rfl rfl hrange
    · have hadd := hrecords.add hid fun k hk =>
        ne_readID_of_tagExists hexists (Nat.lt_trans hk hcount)
      have hlast : s.tagCount + 1 = numWaypoints := Nat.le_antisymm hcount hfull
      rw [hlast] at hadd
      exact ⟨bounded_snoc hindices (Nat.zero_lt_succ _), Nat.zero_le _,
        fun hseek => absurd hseek Bool.false_ne_true, fun _ => hadd⟩
    · have hadd := hrecords.add hid fun k hk =>
        ne_readID_of_tagExists hexists (Nat.lt_trans hk hcount)
      exact ⟨hindices, hcount, fun _ => ⟨Nat.lt_succ_of_le (Nat.not_lt.mp hfull), hadd⟩,
        fun hdone => absurd (hdone.symm.trans hinit) Bool.false_ne_true⟩
  · exact h

theorem robotPacket (now : UInt32) : (s.robotPacket now).Mission := by
  unfold Nav.robotPacket
  split_ifs
  · exact h.congr rfl rfl rfl rfl h.indices
  · exact h

theorem packetHandling (rx : Option UInt8) (now : UInt32) : (s.packetHandling rx now).Mission := by
  unfold Nav.packetHandling
  have hm : Mission { s with readstate := false, i := 0 } := h.congr rfl rfl rfl rfl h.indices
  split_ifs with hidle hi
  · exact h.idle rx
  · exact h.collect hi rx
  · exact hm.initPacket ‹_›
  · exact hm.robotPacket now

end Mission

/-- What the movement part of a call can do. -/
theorem movementHandling_cases (o : FloatOps F) (s : Nav) (now : UInt32) :
    (s.Halted now ∧ s.movementHandling o now = { s with motion := .brake }) ∨
    (¬ s.Halted now ∧ ∃ report, s.movementHandling o now =
      { s with
        indices := s.indices ++ [s.tagCount]
        motion := .brake
        report := report
        tagCount := s.tagCount + 1 }) ∨
    (¬ s.Halted now ∧ ∃ m, m ≠ Motion.brake ∧ s.movementHandling o now =
      { s with indices := s.indices ++ [s.tagCount], motion := m }) := by
  unfold movementHandling
  dsimp only
  split_ifs with hhalt
  · exact .inl ⟨hhalt, rfl⟩
  · exact .inr (.inl ⟨hhalt, _, rfl⟩)
  · exact .inr (.inr ⟨hhalt, .forward, by decide, rfl⟩)
  · exact .inr (.inr ⟨hhalt, .left, by decide, rfl⟩)
  · exact .inr (.inr ⟨hhalt, .right, by decide, rfl⟩)

theorem not_halted {now : UInt32} (h : ¬ s.Halted now) :
    s.initStage = false ∧ now - s.lastpacketRobot ≤ 500 ∧ s.readySignal = true ∧
      s.tagCount < numWaypoints := by
  obtain ⟨hinit, h⟩ := not_or.mp h
  obtain ⟨hstale, hcount⟩ := not_or.mp h
  obtain ⟨hold, hready⟩ := not_or.mp hstale
  refine ⟨Bool.eq_false_iff.mpr hinit, UInt32.not_lt.mp hold, Bool.eq_true_of_not_eq_false hready, ?_⟩
  exact Nat.lt_succ_of_le (Nat.not_lt.mp hcount)

theorem Mission.movementHandling (h : s.Mission) (o : FloatOps F) (now : UInt32) :
    (s.movementHandling o now).Mission := by
  rcases s.movementHandling_cases o now with ⟨-, he⟩ | ⟨hgo, report, he⟩ | ⟨hgo, m, -, he⟩
  · rw [he]
    exact h.congr rfl rfl rfl rfl h.indices
  · obtain ⟨hinit, -, -, hcount⟩ := not_halted hgo
    rw [he]
    exact ⟨bounded_snoc h.indices hcount, hcount,
      fun hseek => absurd (hinit.symm.trans hseek) Bool.false_ne_true, fun _ => h.found hinit⟩
  · rw [he]
    exact h.congr rfl rfl rfl rfl (bounded_snoc h.indices (not_halted hgo).2.2.2)

/-- The two parts of a call that returns. -/
theorem robotRadioService_eq (ht : s.robotRadioService o inp = some t) :
    ∃ report, t =
      { (({ s with report := report }.packetHandling inp.rxByte inp.packetTime).movementHandling o
        inp.decisionTime) with clock := inp.decisionTime } := by
  obtain ⟨⟨sent, report⟩, -, he⟩ := Option.map_eq_some_iff.mp ht
  exact ⟨report, he.symm⟩

theorem Mission.step (h : s.Mission) (ht : s.robotRadioService o inp = some t) : t.Mission := by
  obtain ⟨report, rfl⟩ := robotRadioService_eq ht
  have hm : Mission { s with report := report } := h.congr rfl rfl rfl rfl h.indices
  have hmove := (hm.packetHandling inp.rxByte inp.packetTime).movementHandling o inp.decisionTime
  exact hmove.congr rfl rfl rfl rfl hmove.indices

/-- What a call after the init stage keeps of the mission. -/
structure Advances (s t : Nav) : Prop where
  initStage : t.initStage = false
  tagIDs : t.tagIDs = s.tagIDs
  tagGoal : t.tagGoal = s.tagGoal
  le : s.tagCount ≤ t.tagCount
  le_succ : t.tagCount ≤ s.tagCount + 1
  finished : s.tagCount = numWaypoints → t.tagCount = numWaypoints ∧ t.motion = .brake

theorem packetHandling_keeps (hinit : s.initStage = false) (rx : Option UInt8) (now : UInt32) :
    (s.packetHandling rx now).initStage = false ∧ (s.packetHandling rx now).tagIDs = s.tagIDs ∧
      (s.packetHandling rx now).tagGoal = s.tagGoal ∧
      (s.packetHandling rx now).tagCount = s.tagCount := by
  unfold packetHandling
  split_ifs with hidle hi hseek
  · cases rx with
    | none => exact ⟨hinit, rfl, rfl, rfl⟩
    | some b =>
        dsimp only [idle]
        split_ifs <;> exact ⟨hinit, rfl, rfl, rfl⟩
  · cases rx <;> exact ⟨hinit, rfl, rfl, rfl⟩
  · exact absurd (hinit.symm.trans hseek) Bool.false_ne_true
  · dsimp only [robotPacket]
    split_ifs <;> exact ⟨hinit, rfl, rfl, rfl⟩

theorem advances (hinit : s.initStage = false) (ht : s.robotRadioService o inp = some t) :
    s.Advances t := by
  obtain ⟨report, rfl⟩ := robotRadioService_eq ht
  obtain ⟨hinit', hids, hgoal, hcount⟩ := packetHandling_keeps (s := { s with report := report })
    hinit inp.rxByte inp.packetTime
  rcases movementHandling_cases o _ inp.decisionTime with ⟨-, he⟩ | ⟨hgo, r, he⟩ | ⟨hgo, m, -, he⟩
  all_goals rw [he]
  · exact ⟨hinit', hids, hgoal, hcount.ge, Nat.le_succ_of_le hcount.le,
      fun hfin => ⟨hcount.trans hfin, rfl⟩⟩
  · have hlt := (not_halted hgo).2.2.2
    refine ⟨hinit', hids, hgoal, Nat.le_succ_of_le hcount.ge, Nat.succ_le_succ hcount.le,
      fun hfin => absurd (hcount.trans hfin) (Nat.ne_of_lt hlt)⟩
  · have hlt := (not_halted hgo).2.2.2
    exact ⟨hinit', hids, hgoal, hcount.ge, Nat.le_succ_of_le hcount.le,
      fun hfin => absurd (hcount.trans hfin) (Nat.ne_of_lt hlt)⟩

/-- The state after a run from a state in which the init stage is over. -/
theorem run_advances {C : Nav → Input → Prop} (hr : Run (robotRadioService o) C s t)
    (hinit : s.initStage = false) :
    t.initStage = false ∧ t.tagIDs = s.tagIDs ∧ t.tagGoal = s.tagGoal ∧ s.tagCount ≤ t.tagCount := by
  induction hr with
  | refl => exact ⟨hinit, rfl, rfl, Nat.le_refl _⟩
  | tail _ hstep ih =>
      obtain ⟨inp, -, ht⟩ := hstep
      obtain ⟨hinit', hids, hgoal, hle⟩ := ih
      have hadv := advances hinit' ht
      exact ⟨hadv.initStage, hadv.tagIDs.trans hids, hadv.tagGoal.trans hgoal, hle.trans hadv.le⟩

theorem mission_of_run {C : Nav → Input → Prop} (hr : Run (robotRadioService o) C powerUp s) :
    s.Mission :=
  Run.invariant hr mission_powerUp fun _ _ _ h _ ht => h.step ht

/-- The bookkeeping of the mission, for every sequence of calls from power-up. -/
theorem mission_bookkeeping (hr : Run (robotRadioService o) (fun _ _ => True) powerUp s) :
    (∀ k ∈ s.indices, k < numWaypoints) ∧
    (∀ j k, s.tagIDs j ≠ 255 → s.tagIDs j = s.tagIDs k → j = k) ∧
    (∀ k, s.tagIDs k ≠ 255 → s.tagIDs k ≠ robotID ∧ (s.tagGoal k).readID = s.tagIDs k) ∧
    (s.initStage = false →
      (∀ t, Run (robotRadioService o) (fun _ _ => True) s t →
        t.initStage = false ∧ t.tagIDs = s.tagIDs ∧ t.tagGoal = s.tagGoal ∧
          s.tagCount ≤ t.tagCount ∧ t.tagCount ≤ numWaypoints) ∧
      (∀ inp t, s.robotRadioService o inp = some t → t.tagCount ≤ s.tagCount + 1) ∧
      (s.tagCount = numWaypoints →
        ∀ t, Run (robotRadioService o) (fun _ _ => True) s t →
          ∀ inp u, t.robotRadioService o inp = some u → u.motion = .brake)) := by
  have h := mission_of_run hr
  obtain ⟨n, -, hrec⟩ := h.records
  refine ⟨h.indices, hrec.distinct, hrec.goal, fun hinit => ⟨fun t ht => ?_, fun inp t ht => ?_,
    fun hfin t ht inp u hu => ?_⟩⟩
  · obtain ⟨hinit', hids, hgoal, hle⟩ := run_advances ht hinit
    exact ⟨hinit', hids, hgoal, hle, (mission_of_run (hr.trans ht)).count⟩
  · exact (advances hinit ht).le_succ
  · obtain ⟨hinit', -, -, hle⟩ := run_advances ht hinit
    have hcount := (mission_of_run (hr.trans ht)).count
    rw [hfin] at hle
    exact ((advances hinit' hu).finished (Nat.le_antisymm hcount hle)).2

/-! ### What the robot steers by -/

/-- What the variables tell of the packets, `now` being the last time that was read. -/
structure Informed (s : Nav) (now : UInt32) : Prop where
  ready : s.readySignal = true → 0x67 ∈ s.received
  uninformed : s.robotPackets = [] → s.lastpacketRobot = 0
  last : s.robotPackets ≠ [] → (s.lastpacketRobot, s.tagRobot) ∈ s.robotPackets
  readID : ∀ p ∈ s.robotPackets, p.2.readID = robotID
  past : s.lastpacketRobot ≤ now

theorem informed_powerUp : powerUp.Informed powerUp.clock where
  ready h := absurd h Bool.false_ne_true
  uninformed _ := rfl
  last h := absurd rfl h
  readID _ h := nomatch h
  past := UInt32.le_refl 0

namespace Informed

variable {now : UInt32} (h : s.Informed now)
include h

theorem later {now' : UInt32} (hle : now ≤ now') : s.Informed now' :=
  { h with past := UInt32.le_trans h.past hle }

/-- Only the fields that tell of packets matter. -/
theorem congr (hready : t.readySignal = true → 0x67 ∈ t.received)
    (hpackets : t.robotPackets = s.robotPackets) (hlast : t.lastpacketRobot = s.lastpacketRobot)
    (hrobot : t.tagRobot = s.tagRobot) : t.Informed now := by
  refine ⟨hready, ?_, ?_, ?_, ?_⟩
  · rw [hpackets, hlast]
    exact h.uninformed
  · rw [hpackets, hlast, hrobot]
    exact h.last
  · rw [hpackets]
    exact h.readID
  · rw [hlast]
    exact h.past

theorem idle (rx : Option UInt8) : (s.idle rx).Informed now := by
  cases rx with
  | none => exact h
  | some b =>
      have hready : s.readySignal = true → 0x67 ∈ s.received ++ [b] := fun hr =>
        List.mem_append_left _ (h.ready hr)
      dsimp only [Nav.idle]
      split_ifs with hheader hgo
      · exact h.congr hready rfl rfl rfl
      · exact h.congr (fun _ => List.mem_append_right _ (List.mem_singleton.mpr hgo.symm)) rfl rfl rfl
      · exact h.congr hready rfl rfl rfl

theorem collect (hi : s.i + 1 < qTupleSize) (rx : Option UInt8) :
    (s.collect hi rx).Informed now := by
  cases rx with
  | none => exact h
  | some b => exact h.congr (fun hr => List.mem_append_left _ (h.ready hr)) rfl rfl rfl

theorem initPacket : s.initPacket.Informed now := by
  unfold Nav.initPacket
  dsimp only
  split_ifs <;> exact h.congr h.ready rfl rfl rfl

theorem robotPacket : (s.robotPacket now).Informed now := by
  unfold Nav.robotPacket
  split_ifs with hid
  · refine ⟨h.ready, fun hnil => ?_, fun _ => ?_, fun p hp => ?_, UInt32.le_refl now⟩
    · exact absurd hnil (List.append_ne_nil_of_right_ne_nil _ (List.cons_ne_nil _ _))
    · exact List.mem_append_right _ (List.mem_singleton.mpr rfl)
    · rcases List.mem_append.mp hp with hold | hnew
      · exact h.readID p hold
      · rw [List.mem_singleton.mp hnew]
        exact hid
  · exact h

theorem packetHandling (rx : Option UInt8) : (s.packetHandling rx now).Informed now := by
  have hm : Informed { s with readstate := false, i := 0 } now := h.congr h.ready rfl rfl rfl
  unfold Nav.packetHandling
  split_ifs with hidle hi
  · exact h.idle rx
  · exact h.collect hi rx
  · exact hm.initPacket
  · exact hm.robotPacket

theorem movementHandling (o : FloatOps F) (now' : UInt32) :
    (s.movementHandling o now').Informed now := by
  rcases s.movementHandling_cases o now' with ⟨-, he⟩ | ⟨-, report, he⟩ | ⟨-, m, -, he⟩
  all_goals
    rw [he]
    exact h.congr h.ready rfl rfl rfl

/-- The packets that the movement decision of a call can build on. -/
theorem decision (htime : now ≤ inp.packetTime ∧ inp.packetTime ≤ inp.decisionTime)
    (report : Report) :
    (({ s with report := report } : Nav).packetHandling inp.rxByte inp.packetTime).Informed
      inp.decisionTime := by
  have hm : Informed { s with report := report } inp.packetTime :=
    (h.later htime.1).congr h.ready rfl rfl rfl
  exact (hm.packetHandling inp.rxByte).later htime.2

end Informed

theorem Informed.step (h : s.Informed s.clock) (htime : s.Timed inp)
    (ht : s.robotRadioService o inp = some t) : t.Informed t.clock := by
  obtain ⟨report, rfl⟩ := robotRadioService_eq ht
  have hmove := (h.decision htime report).movementHandling o inp.decisionTime
  exact hmove.congr hmove.ready rfl rfl rfl

theorem informed_of_run (hr : Run (robotRadioService o) Timed powerUp s) : s.Informed s.clock :=
  Run.invariant (I := fun s => s.Informed s.clock) hr informed_powerUp
    fun _ _ _ h hc ht => h.step hc ht

/-- The next call processes a packet of the robot. -/
def TakesRobotPacket (s : Nav) : Prop :=
  s.readstate = true ∧ ¬ s.i + 1 < qTupleSize ∧ s.initStage = false ∧ s.packet.readID = robotID

theorem robotPackets_packetHandling (s : Nav) (rx : Option UInt8) (now : UInt32) :
    (s.packetHandling rx now).robotPackets ≠ [] ↔ s.robotPackets ≠ [] ∨ s.TakesRobotPacket := by
  unfold packetHandling TakesRobotPacket
  split_ifs with hidle hi hseek
  · have hkeep : (s.idle rx).robotPackets = s.robotPackets := by
      cases rx with
      | none => rfl
      | some b =>
          dsimp only [idle]
          split_ifs <;> rfl
    rw [hkeep]
    exact (or_iff_left fun hx => Bool.false_ne_true (hidle.symm.trans hx.1)).symm
  · have hkeep : (s.collect hi rx).robotPackets = s.robotPackets := by
      cases rx <;> rfl
    rw [hkeep]
    exact (or_iff_left fun hx => hx.2.1 hi).symm
  · have hkeep : (initPacket { s with readstate := false, i := 0 }).robotPackets =
        s.robotPackets := by
      unfold initPacket
      dsimp only
      split_ifs <;> rfl
    rw [hkeep]
    exact (or_iff_left fun hx => Bool.false_ne_true (hx.2.2.1.symm.trans hseek)).symm
  · dsimp only [robotPacket]
    split_ifs with hid
    · refine iff_of_true (List.append_ne_nil_of_right_ne_nil _ (List.cons_ne_nil _ _)) (.inr ?_)
      exact ⟨Bool.eq_true_of_not_eq_false hidle, hi, Bool.eq_false_iff.mpr hseek, hid⟩
    · exact (or_iff_left fun hx => hid hx.2.2.2).symm

/-- A packet of the robot, processed at most 500 ms before `now`, says where the robot is. -/
def SteersByFreshPacket (s : Nav) (now : UInt32) : Prop :=
  ∃ p ∈ s.robotPackets, p.2.readID = robotID ∧ p.1 ≤ now ∧ now.toNat ≤ p.1.toNat + 500 ∧
    s.tagRobot = p.2

/-- A robot that is not halted steers by a fresh packet exactly when the time is past the first
500 ms or some packet of the robot was processed. -/
theorem Informed.fresh_iff {now : UInt32} (h : s.Informed now) (hgo : ¬ s.Halted now) :
    s.SteersByFreshPacket now ↔ 500 < now ∨ s.robotPackets ≠ [] := by
  have hage : now.toNat ≤ s.lastpacketRobot.toNat + 500 := by
    have hle := UInt32.le_iff_toNat_le.mp (not_halted hgo).2.1
    have hpast := UInt32.le_iff_toNat_le.mp h.past
    rw [UInt32.toNat_sub_of_le _ _ h.past] at hle
    change now.toNat - s.lastpacketRobot.toNat ≤ 500 at hle
    omega
  constructor
  · rintro ⟨p, hp, -⟩
    exact .inr (List.ne_nil_of_mem hp)
  · intro hcond
    have hne : s.robotPackets ≠ [] := by
      intro hnil
      rw [h.uninformed hnil] at hage
      have hlate : 500 < now.toNat :=
        UInt32.lt_iff_toNat_lt.mp (hcond.resolve_right (not_not.mpr hnil))
      exact absurd hage (Nat.not_le.mpr hlate)
    exact ⟨_, h.last hne, h.readID _ (h.last hne), h.past, hage, rfl⟩

/-- A call that ends with the robot moving, after any run from power-up. -/
theorem moves_on_fresh_packet_iff (hr : Run (robotRadioService o) Timed powerUp s)
    (htime : s.Timed inp) (ht : s.robotRadioService o inp = some t) (hm : t.motion ≠ .brake) :
    0x67 ∈ t.received ∧
    ((∀ k < numWaypoints, t.tagIDs k ≠ 255 ∧ t.tagIDs k ≠ robotID ∧
      (t.tagGoal k).readID = t.tagIDs k) ∧
      ∀ j < numWaypoints, ∀ k < numWaypoints, t.tagIDs j = t.tagIDs k → j = k) ∧
    t.tagCount < numWaypoints ∧
    (t.SteersByFreshPacket inp.decisionTime ↔
      500 < inp.decisionTime ∨ s.robotPackets ≠ [] ∨ s.TakesRobotPacket) := by
  have hmission := (mission_of_run hr).step ht
  have hinformed := informed_of_run hr
  obtain ⟨report, rfl⟩ := robotRadioService_eq ht
  have hdecision := hinformed.decision htime report
  have hpackets := robotPackets_packetHandling { s with report := report } inp.rxByte inp.packetTime
  generalize packetHandling { s with report := report } inp.rxByte inp.packetTime = u at *
  rcases u.movementHandling_cases o inp.decisionTime with ⟨-, he⟩ | ⟨-, r, he⟩ | ⟨hgo, m, -, he⟩
  · exact absurd (congrArg motion he) hm
  · exact absurd (congrArg motion he) hm
  · obtain ⟨hinit, -, hready, hcount⟩ := not_halted hgo
    rw [he] at hmission ⊢
    have hrec := hmission.found hinit
    refine ⟨hdecision.ready hready, ⟨fun k hk => ?_, fun j hj k hk => ?_⟩, hcount, ?_⟩
    · have hset := (hrec.recorded k).mpr hk
      exact ⟨hset, hrec.goal k hset⟩
    · exact hrec.distinct j k ((hrec.recorded j).mpr hj)
    · exact (hdecision.fresh_iff hgo).trans (or_congr_right hpackets)

end Nav

/-! ### Runs -/

/-- The bytes of a packet with an ID below 32, Y and R zero and an even X below 256, and one more
call, which processes it. -/
def packetBytes (id x : UInt8) : List (Option UInt8) :=
  [some ((0xFC : UInt8) ||| id >>> 3), some (id <<< 5), some 0, some (x <<< 1), some 0, none]

def callsFrom (now : UInt32) : List (Option UInt8) → List Input
  | [] => []
  | b :: bytes => ⟨0, b, now, now⟩ :: callsFrom (now + 10) bytes

/-- The start signal and five tags at X = 100. -/
def startBytes : List (Option UInt8) :=
  some 0x67 :: [0, 1, 2, 3, 4].flatMap fun id => packetBytes id 100

namespace Nav

theorem mission_bookkeeping_five_tags : ∃ s : Nav,
    (s.initStage, s.tagCount, s.indices.length) = (false, 0, 32) ∧
    (∀ k ∈ s.indices, k < numWaypoints) ∧
    ∀ t, Run (robotRadioService FloatOps.onAxis) (fun _ _ => True) s t → t.tagIDs = s.tagIDs := by
  have hrun : (exec (robotRadioService FloatOps.onAxis) (fun _ _ => True) powerUp
      (callsFrom 10 startBytes)).map (fun s => (s.initStage, s.tagCount, s.indices.length)) =
      some (false, 0, 32) := by decide +kernel
  obtain ⟨s, hr, hs⟩ := exists_run_of_exec hrun
  have h := mission_bookkeeping hr
  refine ⟨s, hs, h.1, fun t ht => ?_⟩
  exact ((h.2.2.2 (congrArg Prod.fst hs)).1 t ht).2.1

/-- The robot's own packet, 700 ms after power-up. -/
theorem moves_on_fresh_packet_robot : ∃ s t : Nav, ∃ inp : Input,
    s.robotRadioService FloatOps.onAxis inp = some t ∧ t.motion = .forward ∧
      t.SteersByFreshPacket inp.decisionTime := by
  have hrun : (exec (robotRadioService FloatOps.onAxis) Timed powerUp
      (callsFrom 10 startBytes ++ (callsFrom 700 (packetBytes 11 0)).dropLast)).map
      (fun s => (decide (s.Timed ⟨0, none, 750, 750⟩),
        (s.robotRadioService FloatOps.onAxis ⟨0, none, 750, 750⟩).map motion)) =
      some (true, some .forward) := by decide +kernel
  obtain ⟨s, hr, hs⟩ := exists_run_of_exec hrun
  obtain ⟨t, ht, hm⟩ := Option.map_eq_some_iff.mp (congrArg Prod.snd hs)
  have h := moves_on_fresh_packet_iff hr (of_decide_eq_true (congrArg Prod.fst hs)) ht
    (by rw [hm]; decide)
  exact ⟨s, t, _, ht, hm, h.2.2.2.mpr (.inl (by decide))⟩

/-- Five tags and the start signal within 320 ms: the robot drives off without having been seen. -/
theorem moves_without_robot_packet :
    ¬ ∀ (s t : Nav) (inp : Input), Run (robotRadioService FloatOps.onAxis) Timed powerUp s →
      s.Timed inp → s.robotRadioService FloatOps.onAxis inp = some t → t.motion ≠ .brake →
        t.SteersByFreshPacket inp.decisionTime := by
  intro hall
  have hrun : (exec (robotRadioService FloatOps.onAxis) Timed powerUp
      (callsFrom 10 startBytes).dropLast).map (fun s => (decide (s.Timed ⟨0, none, 310, 310⟩),
        (s.robotRadioService FloatOps.onAxis ⟨0, none, 310, 310⟩).map fun t =>
          (t.motion, t.robotPackets.length))) = some (true, some (.forward, 0)) := by
    decide +kernel
  obtain ⟨s, hr, hs⟩ := exists_run_of_exec hrun
  obtain ⟨t, ht, hm⟩ := Option.map_eq_some_iff.mp (congrArg Prod.snd hs)
  have hmotion : t.motion = .forward := congrArg Prod.fst hm
  obtain ⟨p, hp, -⟩ := hall s t _ hr (of_decide_eq_true (congrArg Prod.fst hs)) ht
    (by rw [hmotion]; decide)
  rw [List.length_eq_zero_iff.mp (congrArg Prod.snd hm)] at hp
  cases hp

end Nav
end WixelSdk.WaypointNav
