import WixelSdk.ControlMotion
import WixelSdk.FloatOps
import WixelSdk.Packet
import WixelSdk.Transition
import Mathlib.Logic.Function.Basic

/-!
# The lcc robot

The main loop of `wireless_serial_lcc.c`. While USB is unplugged the robot takes packets and command
bytes off the radio; once the flag `g_cbk_s` is on, the packets steer it towards the closest tag, and
every iteration calls `MoveUpdate(MOVE_UPDT)`, which ends the motion that was started last.
-/

namespace WixelSdk.LccRobot
open Transition Packet ControlMotion

abbrev maxTargets : ℕ := 32

/-- g_my_id -/
abbrev myId : UInt8 := 7

inductive State
  | invalid
  | exist
  | found
  deriving DecidableEq, Repr

structure Status where
  x : Int16
  y : Int16
  r : Int16
  state : State
  id : Int8

inductive Mode
  | tethered
  | untethered
  deriving DecidableEq, Repr

abbrev Message := String × List Int16

/-- An iteration of the main loop: when it started, whether it got to `MoveUpdate(MOVE_UPDT)`, and the
time that this call read. -/
structure Iteration where
  start : UInt32
  armed : Bool
  pollTime : UInt32

/-- The variables, with the calls of `MoveUpdate` so far, the messages so far, the iterations so far
and the time that was read last. -/
structure Robot where
  currentMode : Mode
  cbkD : Bool
  cbkG : Bool
  cbkF : Bool
  cbkS : Bool
  readstate : Bool
  pkI : ℕ
  packet : QTuple
  canReadPacket : Bool
  targets : ℕ → Status
  myrobot : Status
  approachId : Int16
  shwT0 : UInt32
  motion : Motion
  moves : List (UInt32 × UInt16)
  sent : List Message
  iterations : List Iteration
  clock : UInt32

/-- What `usbPowerPresent` and `radioComRxReceiveByte` return in an iteration, and the time at its
start and at each call of `getMs`. -/
structure Input where
  usbPowerPresent : Bool
  rxByte : Option UInt8
  start : UInt32
  robotTime : UInt32
  gameTime : UInt32
  pollTime : UInt32
  shadowTime : UInt32
  shadowMoveTime : UInt32
  debugTime : UInt32

def Input.Increasing (inp : Input) : Prop :=
  inp.start ≤ inp.robotTime ∧ inp.robotTime ≤ inp.gameTime ∧ inp.gameTime ≤ inp.pollTime ∧
    inp.pollTime ≤ inp.shadowTime ∧ inp.shadowTime ≤ inp.shadowMoveTime ∧
    inp.shadowMoveTime ≤ inp.debugTime

instance (inp : Input) : Decidable inp.Increasing :=
  inferInstanceAs (Decidable (_ ∧ _ ∧ _ ∧ _ ∧ _ ∧ _))

def directionText (p : Pins) : String :=
  if p = moveLeft then "MLf"
  else if p = moveRight then "MRt"
  else if p = moveForward then "MFw"
  else if p = moveBackward then "MBw"
  else "MSt"

/-- The command that `RotateCar` gives; `none` when the angle is below ANGLE_0. -/
def rotateCommand (degree : Int16) : Option UInt16 :=
  let absDeg := (if degree > 0 then degree else -degree).toUInt16
  let direction :=
    if degree < 0 then if absDeg < 180 then Move.left else Move.rght
    else if absDeg < 180 then Move.rght else Move.left
  let absDeg := if absDeg > 180 then 360 - absDeg else absDeg
  if absDeg < 10 then none
  else if absDeg < 30 then some (Move.dur0 ||| direction)
  else if absDeg < 50 then some (Move.dur1 ||| direction)
  else some (Move.dur2 ||| direction)

def straightCommand (distance : Int32) : UInt16 :=
  if distance < 20 then Move.fwrd ||| Move.dur1
  else if distance < 90 then Move.fwrd ||| Move.dur2
  else if distance < 180 then Move.fwrd ||| Move.dur3
  else Move.fwrd ||| Move.dur4

/-- What the search of `GetTargetIdx` has found so far. -/
structure Search where
  idx : ℕ
  exist : Bool
  minDist : Int32
  sent : List Message

namespace Robot

variable {F : Type*} (o : FloatOps F) (s : Robot)

def sendBackStr (text : String) (values : List Int16) : Robot :=
  { s with sent := s.sent ++ [(text, values)] }

/-- A message that is sent only while the flag `g_cbk_g` is on. -/
def debug (text : String) (values : List Int16) : Robot :=
  if s.cbkG then s.sendBackStr text values else s

def moveUpdate (cmd : UInt16) (curTime : UInt32) : Robot :=
  let s := (updateDuration cmd).elim s fun ms => s.debug "Dur" [ms.toUInt16.toInt16]
  let s := (updateDirection cmd.toUInt8).elim s fun p => s.debug (directionText p) []
  { s with motion := s.motion.moveUpdate cmd curTime, moves := s.moves ++ [(curTime, cmd)] }

def robotRadioService (mybyte : UInt8) : Robot :=
  if mybyte = 0x73 then
    if s.cbkS = false then { s with cbkS := true }.sendBackStr "\nFlag S on\n" []
    else { s with cbkS := false }.sendBackStr "\nFlag S off\n" []
  else if mybyte = 0x64 then { s with cbkD := true }
  else if mybyte = 0x66 then { s with cbkF := true }
  else if mybyte = 0x67 then
    if s.cbkG = false then { s with cbkG := true }.sendBackStr "\nFlag G on\n" []
    else { s with cbkG := false }.sendBackStr "\nFlag G off\n" []
  else s

def updatePacketService (rxByte : Option UInt8) : Robot :=
  if s.readstate = false then
    match rxByte with
    | none => s
    | some byte =>
      if checkHeader byte then { s with packet := s.packet.store 0 byte, readstate := true }
      else s.robotRadioService byte
  else if h : s.pkI + 1 < qTupleSize then
    match rxByte with
    | none => s
    | some byte => { s with packet := s.packet.store ⟨s.pkI + 1, h⟩ byte, pkI := s.pkI + 1 }
  else { s with readstate := false, pkI := 0, canReadPacket := true }

def updateTargets (id : UInt8) (x y r : Int16) : Bool × Robot :=
  if id.toNat ≥ maxTargets then (false, s.sendBackStr "-ERROR Invaid Target Id" [])
  else
    match (s.targets id.toNat).state with
    | .invalid =>
      let t := { s.targets id.toNat with state := .exist, x := x, y := y, r := r }
      (true, { s with targets := Function.update s.targets id.toNat t }.debug "UTgtIXY"
        [id.toUInt16.toInt16, x, y])
    | .exist => (false, s.debug "UTgtExt" [])
    | .found => (false, s)

def updateRobot (x y r : Int16) : Robot :=
  { s with myrobot := { s.myrobot with state := .exist, x := x, y := y, r := r } }

def searchTarget (q : Search) (i : ℕ) : Search :=
  let tgt := s.targets i
  if tgt.state = .exist then
    let dx := (tgt.x - s.myrobot.x).toInt32
    let dy := (tgt.y - s.myrobot.y).toInt32
    let dx := if dx < 0 then -dx else dx
    let dy := if dy < 0 then -dy else dy
    let dist := o.toInt32 (o.sqrtf (o.ofInt32 (dx * dx + dy * dy)))
    if q.minDist > dist then
      { idx := i
        exist := true
        minDist := dist
        sent :=
          if s.cbkG then
            q.sent ++ [("mXY", [s.myrobot.x, s.myrobot.y]), ("dXY", [dx.toInt16, dy.toInt16]),
              ("tXYDt", [tgt.x, tgt.y, dist.toInt16])]
          else q.sent }
    else q
  else q

def getTargetIdx : Search × Robot :=
  let q := (List.range maxTargets).foldl (s.searchTarget o) ⟨0, false, 1700, s.sent⟩
  let s := { s with sent := q.sent }
  let id := (s.targets q.idx).id.toInt16
  if q.exist ∧ s.approachId ≠ id then (q, { s with approachId := id }.debug "ApprTgt" [id])
  else (q, s)

/-- The angle between the robot and a target. -/
def getDiffOrientation (tgtIdx : ℕ) : Int16 :=
  let dx := o.ofInt16 ((s.targets tgtIdx).x - s.myrobot.x)
  let dy := o.ofInt16 ((s.targets tgtIdx).y - s.myrobot.y)
  let deg := o.div (o.mul (o.atan2f dy dx) (o.ofNat 180)) (o.ofScientific 31415926 7)
  let deg := if o.lt deg (o.ofNat 0) then o.add deg (o.ofNat 360) else deg
  let deg := o.sub (o.ofInt16 s.myrobot.r) deg
  let deg := if o.lt (o.ofNat 180) deg then o.sub (o.ofNat 360) deg else deg
  o.toInt16 deg

/-- `UpdateGame` once the positions are updated. -/
def steer (now : UInt32) : Robot :=
  if s.myrobot.state ≠ .exist then s
  else
    let (q, s) := s.getTargetIdx o
    if q.exist = false then s.debug "Tgt None" []
    else if q.minDist < 30 then
      let s := (s.sendBackStr "-X" []).sendBackStr "TgtFund" [q.minDist.toInt16]
      { s with
        targets := Function.update s.targets q.idx { s.targets q.idx with state := .found } }
    else
      let diffOrientation := s.getDiffOrientation o q.idx
      let s := s.debug "IDtDg" [.ofNat q.idx, q.minDist.toInt16, diffOrientation]
      match rotateCommand diffOrientation with
      | some cmd => (s.moveUpdate cmd now).debug "+R" []
      | none => (s.moveUpdate (straightCommand q.minDist) now).debug "+M" []

def updateGame (id : UInt8) (x y r : Int16) (inp : Input) : Robot :=
  let s := s.debug "\n" []
  let y := 480 - y
  let s := if y < 0 then s.sendBackStr "\n --- WIERD COORDINATE Y ---\n" [] else s
  if id = 0 then s
  else if id = myId then
    ({ s.updateRobot x y r with shwT0 := inp.robotTime }.debug "RbXYR" [x, y, r]).steer o inp.gameTime
  else
    let (updated, s) := s.updateTargets id x y r
    if updated then s.steer o inp.gameTime else s

def forceShadowMove (inp : Input) : Robot :=
  if (inp.shadowTime - s.shwT0).toInt32 > 800 then
    { s.moveUpdate (Move.dur2 ||| Move.bwrd) inp.shadowMoveTime with shwT0 := inp.shadowTime }
  else s

def readPacket (inp : Input) : Robot :=
  if s.canReadPacket then
    { s.updateGame o s.packet.readID s.packet.readX.toInt16 s.packet.readY.toInt16
        s.packet.readR.toInt16 inp with canReadPacket := false }
  else s

/-- The flag that the byte `d` sets. -/
def debugMove (inp : Input) : Robot :=
  if s.cbkD then { s.moveUpdate (Move.dur1 ||| Move.fwrd) inp.debugTime with cbkD := false } else s

/-- MODE_UNTETHERED, past the early `break`. -/
def fire (inp : Input) : Robot :=
  let s := ((s.readPacket o inp).moveUpdate Move.updt inp.pollTime).forceShadowMove inp
  { s with cbkF := false }.debugMove inp

def untethered (inp : Input) : Robot :=
  let s := s.updatePacketService inp.rxByte
  if s.cbkS = false then s else s.fire o inp

def updateMode (inp : Input) : Robot :=
  { s with currentMode := if inp.usbPowerPresent then .tethered else .untethered }

/-- Past `updateMode`, the iteration gets past the early `break`. -/
def armed (inp : Input) : Bool :=
  s.currentMode == .untethered && (s.updatePacketService inp.rxByte).cbkS

def service (inp : Input) : Robot :=
  match s.currentMode with
  | .tethered => s
  | .untethered => s.untethered o inp

def iteration (inp : Input) : Option Robot :=
  some { (s.updateMode inp).service o inp with
    iterations := s.iterations ++ [⟨inp.start, (s.updateMode inp).armed inp, inp.pollTime⟩]
    clock := inp.debugTime }

/-- `getMs` does not wrap. -/
def Timed (inp : Input) : Prop := s.clock ≤ inp.start ∧ inp.Increasing

instance (inp : Input) : Decidable (s.Timed inp) := inferInstanceAs (Decidable (_ ∧ _))

/-- The static variables, and what `InitStatus` writes to them. -/
def powerUp : Robot where
  currentMode := .tethered
  cbkD := false
  cbkG := true
  cbkF := false
  cbkS := false
  readstate := false
  pkI := 0
  packet := ⟨fun _ => 0⟩
  canReadPacket := false
  targets := fun _ => ⟨0, 0, 0, .invalid, 0⟩
  myrobot := ⟨0, 0, 0, .invalid, 7⟩
  approachId := 33
  shwT0 := 0
  motion := .start
  moves := []
  sent := []
  iterations := []
  clock := 0

/-! ### The calls of `MoveUpdate` -/

/-- From `s` to `t`, `MoveUpdate` is called as `l` says. -/
structure Calls (s t : Robot) (l : List (UInt32 × UInt16)) : Prop where
  motion : t.motion = s.motion.moveUpdates l
  moves : t.moves = s.moves ++ l

/-- A command with a direction that is not the brake. -/
def Drives (cmd : UInt16) : Prop := ∃ p, updateDirection cmd.toUInt8 = some p ∧ p ≠ brake

variable {o s} {t u : Robot} {inp : Input}

theorem Calls.trans {l l' : List (UInt32 × UInt16)} (h : s.Calls t l) (h' : t.Calls u l') :
    s.Calls u (l ++ l') where
  motion := by
    rw [h'.motion, h.motion, Motion.moveUpdates, Motion.moveUpdates, ← List.foldl_append]
    rfl
  moves := by rw [h'.moves, h.moves, List.append_assoc]

theorem Calls.of_eq (hmotion : t.motion = s.motion) (hmoves : t.moves = s.moves) : s.Calls t [] :=
  ⟨hmotion, hmoves.trans (List.append_nil _).symm⟩

theorem Calls.refl (s : Robot) : s.Calls s [] := .of_eq rfl rfl

/-- What leaves the motion alone can be put after the calls. -/
theorem Calls.frame {l : List (UInt32 × UInt16)} (h : s.Calls t l) (hmotion : u.motion = t.motion)
    (hmoves : u.moves = t.moves) : s.Calls u l := ⟨hmotion.trans h.motion, hmoves.trans h.moves⟩

@[simp] theorem debug_motion (s : Robot) (text : String) (values : List Int16) :
    (s.debug text values).motion = s.motion := by
  unfold debug
  split_ifs <;> rfl

@[simp] theorem debug_moves (s : Robot) (text : String) (values : List Int16) :
    (s.debug text values).moves = s.moves := by
  unfold debug
  split_ifs <;> rfl

theorem Calls.debug {l : List (UInt32 × UInt16)} (h : s.Calls t l) (text : String)
    (values : List Int16) : s.Calls (t.debug text values) l :=
  h.frame (t.debug_motion text values) (t.debug_moves text values)

theorem calls_moveUpdate (s : Robot) (cmd : UInt16) (now : UInt32) :
    s.Calls (s.moveUpdate cmd now) [(now, cmd)] := by
  have hduration : s.Calls ((updateDuration cmd).elim s fun ms =>
      s.debug "Dur" [ms.toUInt16.toInt16]) [] := by
    cases updateDuration cmd with
    | none => exact .refl s
    | some ms => exact (Calls.refl s).debug _ _
  unfold moveUpdate
  generalize (updateDuration cmd).elim s _ = t at hduration ⊢
  have hdirection : s.Calls ((updateDirection cmd.toUInt8).elim t fun p =>
      t.debug (directionText p) []) [] := by
    cases updateDirection cmd.toUInt8 with
    | none => exact hduration
    | some p => exact hduration.debug _ _
  dsimp only
  generalize (updateDirection cmd.toUInt8).elim t _ = u at hdirection ⊢
  exact ⟨congrArg (fun c => c.moveUpdate cmd now) hdirection.motion,
    congrArg (fun l => l ++ [(now, cmd)]) (hdirection.moves.trans (List.append_nil _))⟩

theorem calls_robotRadioService (s : Robot) (mybyte : UInt8) :
    s.Calls (s.robotRadioService mybyte) [] := by
  unfold robotRadioService
  split_ifs <;> exact .of_eq rfl rfl

theorem calls_updatePacketService (s : Robot) (rx : Option UInt8) :
    s.Calls (s.updatePacketService rx) [] := by
  unfold updatePacketService
  cases rx with
  | none => split_ifs <;> exact .of_eq rfl rfl
  | some byte =>
      dsimp only
      split_ifs
      · exact .of_eq rfl rfl
      · exact s.calls_robotRadioService byte
      · exact .of_eq rfl rfl
      · exact .of_eq rfl rfl

theorem calls_updateTargets (s : Robot) (id : UInt8) (x y r : Int16) :
    s.Calls (s.updateTargets id x y r).2 [] := by
  unfold updateTargets
  split_ifs
  · exact .of_eq rfl rfl
  · cases (s.targets id.toNat).state with
    | invalid => exact .of_eq (debug_motion _ _ _) (debug_moves _ _ _)
    | exist => exact (Calls.refl s).debug _ _
    | found => exact .refl s

theorem calls_getTargetIdx (o : FloatOps F) (s : Robot) : s.Calls (s.getTargetIdx o).2 [] := by
  unfold getTargetIdx
  dsimp only
  split_ifs
  · exact .of_eq (debug_motion _ _ _) (debug_moves _ _ _)
  · exact .of_eq rfl rfl

theorem drives_rotateCommand {degree : Int16} {cmd : UInt16} (h : rotateCommand degree = some cmd) :
    Drives cmd := by
  unfold rotateCommand at h
  dsimp only at h
  split_ifs at h <;> obtain rfl := Option.some.inj h
  all_goals first
    | exact ⟨moveLeft, by decide, by decide⟩
    | exact ⟨moveRight, by decide, by decide⟩

theorem drives_straightCommand (distance : Int32) : Drives (straightCommand distance) := by
  unfold straightCommand
  split_ifs <;> exact ⟨moveForward, by decide, by decide⟩

/-- At most one command, and that one drives. -/
def CallsOnce (s t : Robot) (now : UInt32) : Prop :=
  s.Calls t [] ∨ ∃ cmd, Drives cmd ∧ s.Calls t [(now, cmd)]

theorem Calls.once {now : UInt32} (h : s.Calls t []) (h' : t.CallsOnce u now) :
    s.CallsOnce u now := by
  rcases h' with h' | ⟨cmd, hdrives, h'⟩
  · exact .inl (h.trans h')
  · exact .inr ⟨cmd, hdrives, h.trans h'⟩

theorem callsOnce_steer (o : FloatOps F) (s : Robot) (now : UInt32) :
    s.CallsOnce (s.steer o now) now := by
  have htarget := s.calls_getTargetIdx o
  unfold steer
  split_ifs
  · exact .inl (.refl s)
  · generalize s.getTargetIdx o = qt at htarget ⊢
    obtain ⟨q, t⟩ := qt
    refine htarget.once ?_
    dsimp only
    split_ifs
    · exact .inl ((Calls.refl t).debug _ _)
    · exact .inl (.of_eq rfl rfl)
    · have hdebug := (Calls.refl t).debug "IDtDg"
        [.ofNat q.idx, q.minDist.toInt16, t.getDiffOrientation o q.idx]
      refine hdebug.once ?_
      cases hrotate : rotateCommand (t.getDiffOrientation o q.idx) with
      | none =>
          exact .inr ⟨_, drives_straightCommand _, (calls_moveUpdate _ _ _).debug _ _⟩
      | some cmd =>
          exact .inr ⟨_, drives_rotateCommand hrotate, (calls_moveUpdate _ _ _).debug _ _⟩

theorem callsOnce_updateGame (o : FloatOps F) (s : Robot) (id : UInt8) (x y r : Int16)
    (inp : Input) : s.CallsOnce (s.updateGame o id x y r inp) inp.gameTime := by
  unfold updateGame
  refine ((Calls.refl s).debug "\n" []).once ?_
  generalize s.debug "\n" [] = t
  have hy : t.Calls (if 480 - y < 0 then t.sendBackStr "\n --- WIERD COORDINATE Y ---\n" [] else t)
      [] := by
    split_ifs <;> exact .of_eq rfl rfl
  refine hy.once ?_
  dsimp only
  generalize (if 480 - y < 0 then _ else t) = u
  split_ifs
  · exact .inl (.refl u)
  · refine Calls.once ?_ (callsOnce_steer o _ _)
    exact .of_eq (debug_motion _ _ _) (debug_moves _ _ _)
  · exact (u.calls_updateTargets id x (480 - y) r).once (callsOnce_steer o _ _)
  · exact .inl (u.calls_updateTargets id x (480 - y) r)

theorem callsOnce_readPacket (o : FloatOps F) (s : Robot) (inp : Input) :
    s.CallsOnce (s.readPacket o inp) inp.gameTime := by
  unfold readPacket
  split_ifs
  · rcases s.callsOnce_updateGame o s.packet.readID s.packet.readX.toInt16 s.packet.readY.toInt16
      s.packet.readR.toInt16 inp with h | ⟨cmd, hdrives, h⟩
    · exact .inl (h.frame rfl rfl)
    · exact .inr ⟨cmd, hdrives, h.frame rfl rfl⟩
  · exact .inl (.refl s)

theorem callsOnce_forceShadowMove (s : Robot) (inp : Input) :
    s.CallsOnce (s.forceShadowMove inp) inp.shadowMoveTime := by
  unfold forceShadowMove
  split_ifs
  · exact .inr ⟨_, ⟨moveBackward, by decide, by decide⟩, (calls_moveUpdate _ _ _).frame rfl rfl⟩
  · exact .inl (.refl s)

theorem callsOnce_debugMove (s : Robot) (inp : Input) :
    s.CallsOnce (s.debugMove inp) inp.debugTime := by
  unfold debugMove
  split_ifs
  · exact .inr ⟨_, ⟨moveForward, by decide, by decide⟩, (calls_moveUpdate _ _ _).frame rfl rfl⟩
  · exact .inl (.refl s)

/-! ### The log of the calls -/

def polls (l : List (UInt32 × UInt16)) : List UInt32 :=
  (l.filter fun e => e.2 = Move.updt).map Prod.fst

theorem polls_append (l l' : List (UInt32 × UInt16)) : polls (l ++ l') = polls l ++ polls l' := by
  unfold polls
  rw [List.filter_append, List.map_append]

structure Orderly (first last : UInt32) (l : List (UInt32 × UInt16)) : Prop where
  first_le : ∀ e ∈ l, first ≤ e.1
  le_last : ∀ e ∈ l, e.1 ≤ last
  sorted : l.Pairwise fun d e => d.1 ≤ e.1
  commands : ∀ e ∈ l, e.2 = Move.updt ∨ Drives e.2

namespace Orderly

variable {a b c now : UInt32} {l l' : List (UInt32 × UInt16)}

theorem nil : Orderly a b [] where
  first_le _ h := nomatch h
  le_last _ h := nomatch h
  sorted := .nil
  commands _ h := nomatch h

theorem singleton {cmd : UInt16} (h : cmd = Move.updt ∨ Drives cmd) :
    Orderly now now [(now, cmd)] where
  first_le d hd := by rw [List.mem_singleton.mp hd]; exact UInt32.le_refl now
  le_last d hd := by rw [List.mem_singleton.mp hd]; exact UInt32.le_refl now
  sorted := List.pairwise_singleton _ _
  commands d hd := by rw [List.mem_singleton.mp hd]; exact h

theorem mono (h : Orderly a b l) (hle : c ≤ a) : Orderly c b l :=
  { h with first_le := fun e he => UInt32.le_trans hle (h.first_le e he) }

theorem append (h : Orderly a b l) (h' : Orderly now c l') (hab : a ≤ b) (hle : b ≤ now)
    (hnow : now ≤ c) : Orderly a c (l ++ l') := by
  have hbc := UInt32.le_trans hle hnow
  refine ⟨fun e he => ?_, fun e he => ?_, ?_, fun e he => ?_⟩
  · rcases List.mem_append.mp he with he | he
    · exact h.first_le e he
    · exact UInt32.le_trans (UInt32.le_trans hab hle) (h'.first_le e he)
  · rcases List.mem_append.mp he with he | he
    · exact UInt32.le_trans (h.le_last e he) hbc
    · exact h'.le_last e he
  · refine List.pairwise_append.mpr ⟨h.sorted, h'.sorted, fun d hd e he => ?_⟩
    exact UInt32.le_trans (h.le_last d hd) (UInt32.le_trans hle (h'.first_le e he))
  · exact (List.mem_append.mp he).elim (h.commands e) (h'.commands e)

end Orderly

theorem updateDirection_updt : updateDirection Move.updt.toUInt8 = none := by decide

theorem CallsOnce.orderly {now : UInt32} (h : s.CallsOnce t now) :
    ∃ l, s.Calls t l ∧ Orderly now now l ∧ polls l = [] := by
  rcases h with h | ⟨cmd, hdrives, h⟩
  · exact ⟨[], h, .nil, rfl⟩
  · refine ⟨_, h, .singleton (.inr hdrives), ?_⟩
    have hne : cmd ≠ Move.updt := by
      rintro rfl
      obtain ⟨p, hp, -⟩ := hdrives
      rw [updateDirection_updt] at hp
      cases hp
    rw [polls, List.filter_cons_of_neg (by simpa only [decide_eq_true_eq] using hne)]
    rfl

/-- An iteration that gets past the early `break`. -/
theorem fire_calls (o : FloatOps F) (s : Robot) (htime : inp.Increasing) :
    ∃ l, s.Calls (s.fire o inp) l ∧ Orderly inp.start inp.debugTime l ∧ polls l = [inp.pollTime] := by
  obtain ⟨hrobot, hgame, hpoll, hshadow, hmove, hdebug⟩ := htime
  obtain ⟨l₁, hcalls₁, hl₁, hpolls₁⟩ := (s.callsOnce_readPacket o inp).orderly
  have hupdt := (s.readPacket o inp).calls_moveUpdate Move.updt inp.pollTime
  obtain ⟨l₂, hcalls₂, hl₂, hpolls₂⟩ :=
    (((s.readPacket o inp).moveUpdate Move.updt inp.pollTime).callsOnce_forceShadowMove inp).orderly
  have hshadowed := ((hcalls₁.trans hupdt).trans hcalls₂)
  unfold fire
  generalize ((s.readPacket o inp).moveUpdate Move.updt inp.pollTime).forceShadowMove inp = t at *
  obtain ⟨l₃, hcalls₃, hl₃, hpolls₃⟩ := ({ t with cbkF := false }.callsOnce_debugMove inp).orderly
  have hflag : s.Calls { t with cbkF := false } (l₁ ++ [(inp.pollTime, Move.updt)] ++ l₂) :=
    hshadowed.frame rfl rfl
  refine ⟨_, hflag.trans hcalls₃, ?_, ?_⟩
  · have hpolled : Orderly inp.gameTime inp.pollTime (l₁ ++ [(inp.pollTime, Move.updt)]) :=
      hl₁.append (.singleton (.inl rfl)) (UInt32.le_refl _) hpoll (UInt32.le_refl _)
    have hpast := UInt32.le_trans hshadow hmove
    have hmoved := hpolled.append hl₂ hpoll hpast (UInt32.le_refl _)
    have hdone := hmoved.append hl₃ (UInt32.le_trans hpoll hpast) hdebug (UInt32.le_refl _)
    exact hdone.mono (UInt32.le_trans hrobot hgame)
  · rw [polls_append, polls_append, polls_append, hpolls₁, hpolls₂, hpolls₃]
    rfl

theorem service_calls (o : FloatOps F) (s : Robot) (htime : inp.Increasing) :
    ∃ l, s.Calls (s.service o inp) l ∧ Orderly inp.start inp.debugTime l ∧
      polls l = if s.armed inp then [inp.pollTime] else [] := by
  have hreceive := s.calls_updatePacketService inp.rxByte
  unfold service armed
  cases s.currentMode with
  | tethered => exact ⟨[], .refl s, .nil, rfl⟩
  | untethered =>
      obtain ⟨l, hcalls, hl, hpolls⟩ := (s.updatePacketService inp.rxByte).fire_calls o htime
      cases hflag : (s.updatePacketService inp.rxByte).cbkS with
      | false =>
          refine ⟨[], ?_, .nil, rfl⟩
          dsimp only [untethered]
          rw [if_pos hflag]
          exact hreceive
      | true =>
          refine ⟨l, ?_, hl, hpolls⟩
          dsimp only [untethered]
          rw [if_neg fun hoff => Bool.false_ne_true (hoff.symm.trans hflag)]
          exact hreceive.trans hcalls

/-- What the log says about the motion and about the iterations. -/
structure Logged (s : Robot) : Prop where
  motion : s.motion = Motion.start.moveUpdates s.moves
  orderly : Orderly 0 s.clock s.moves
  pollTimes : polls s.moves = (s.iterations.filter Iteration.armed).map Iteration.pollTime

theorem logged_powerUp : powerUp.Logged := ⟨rfl, .nil, rfl⟩

theorem Logged.step (h : s.Logged) (htime : s.Timed inp) (ht : s.iteration o inp = some t) :
    t.Logged := by
  obtain ⟨l, hcalls, hl, hpolls⟩ := (s.updateMode inp).service_calls o htime.2
  obtain rfl := Option.some.inj ht
  refine ⟨?_, ?_, ?_⟩
  · change ((s.updateMode inp).service o inp).motion =
      Motion.start.moveUpdates ((s.updateMode inp).service o inp).moves
    rw [hcalls.motion, hcalls.moves, Motion.moveUpdates, Motion.moveUpdates, List.foldl_append]
    exact congrArg (fun c => c.moveUpdates l) h.motion
  · change Orderly 0 inp.debugTime ((s.updateMode inp).service o inp).moves
    rw [hcalls.moves]
    obtain ⟨hrobot, hgame, hpoll, hshadow, hmove, hdebug⟩ := htime.2
    have hstart := UInt32.le_trans (UInt32.le_trans hrobot hgame) hpoll
    have hlast := UInt32.le_trans (UInt32.le_trans hshadow hmove) hdebug
    exact h.orderly.append hl (UInt32.le_iff_toNat_le.mpr (Nat.zero_le _)) htime.1
      (UInt32.le_trans hstart hlast)
  · change Robot.polls ((s.updateMode inp).service o inp).moves = _
    rw [hcalls.moves, polls_append, hpolls, List.filter_append, List.map_append, ← h.pollTimes]
    change polls s.moves ++ _ = polls s.moves ++ _
    refine congrArg (fun l => polls s.moves ++ l) ?_
    cases (s.updateMode inp).armed inp <;> rfl

theorem logged_of_run (hr : Run (iteration o) Timed powerUp s) : s.Logged :=
  Run.invariant hr logged_powerUp fun _ _ _ h htime ht => h.step htime ht

/-- The iterations with a `MoveUpdate(MOVE_UPDT)` that reads a time later than `due`. -/
def latePolls (s : Robot) (due : ℕ) : ℕ :=
  s.iterations.countP fun it => it.armed && decide (due < it.pollTime.toNat)

theorem latePolls_eq (h : s.Logged) (due : UInt32) :
    s.latePolls due.toNat = (polls s.moves).countP fun time => due < time := by
  rw [h.pollTimes, List.countP_map, List.countP_filter]
  unfold latePolls
  refine List.countP_congr fun it _ => ?_
  simp only [Function.comp_apply, Bool.and_eq_true, decide_eq_true_eq, UInt32.lt_iff_toNat_lt]
  exact and_comm

/-- After a motion to `p`, the late calls are those that the iterations made. -/
theorem late_eq_latePolls {l₁ l₂ : List (UInt32 × UInt16)} {now due : UInt32} {cmd : UInt16}
    (h : s.Logged) (hlog : s.moves = l₁ ++ (now, cmd) :: l₂) (hquiet : ∀ e ∈ l₂, ¬ Gives e.2)
    (hdue : now ≤ due) : Motion.late due l₂ = s.latePolls due.toNat := by
  have horderly := h.orderly
  rw [hlog] at horderly
  obtain ⟨-, hafter, hcross⟩ := List.pairwise_append.mp horderly.sorted
  have hpast : ∀ time ∈ polls (l₁ ++ [(now, cmd)]), ¬ due < time := by
    intro time htime
    obtain ⟨e, he, rfl⟩ := List.mem_map.mp htime
    have hle : e.1 ≤ now := by
      rcases List.mem_append.mp (List.mem_filter.mp he).1 with he | he
      · exact hcross e he _ List.mem_cons_self
      · rw [List.mem_singleton.mp he]
        exact UInt32.le_refl now
    exact UInt32.not_lt.mpr (UInt32.le_trans hle hdue)
  have hpolled : polls l₂ = l₂.map Prod.fst := by
    refine congrArg (List.map Prod.fst) (List.filter_eq_self.mpr fun e he => decide_eq_true ?_)
    have hmem : e ∈ l₁ ++ (now, cmd) :: l₂ := List.mem_append_right _ (List.mem_cons_of_mem _ he)
    refine (horderly.commands e hmem).resolve_right fun ⟨p, hp, _⟩ => hquiet e he (.inr ?_)
    rw [hp]
    rfl
  have hnone : (polls (l₁ ++ [(now, cmd)])).countP (fun time => due < time) = 0 :=
    List.countP_eq_zero.mpr fun time htime hlate => hpast time htime (of_decide_eq_true hlate)
  rw [latePolls_eq h, hlog, List.append_cons, polls_append, List.countP_append, hnone, hpolled,
    List.countP_map, Nat.zero_add]
  rfl

/-- A motion of `duration cmd` ms from `now` on, and no command after it. Once two iterations have
started after its end, the pins are those of the brake exactly if two iterations got to
`MoveUpdate(MOVE_UPDT)` after its end. -/
theorem timed_motion_ends_iff {l₁ l₂ : List (UInt32 × UInt16)} {now : UInt32} {cmd : UInt16}
    (hr : Run (iteration o) Timed powerUp s) (hlog : s.moves = l₁ ++ (now, cmd) :: l₂)
    (hdirection : (updateDirection cmd.toUInt8).isSome = true) (hquiet : ∀ e ∈ l₂, ¬ Gives e.2)
    (hover : 2 ≤ s.iterations.countP fun it => now.toNat + (duration cmd).toNat < it.start.toNat) :
    s.motion.pins = brake ↔ 2 ≤ s.latePolls (now.toNat + (duration cmd).toNat) := by
  have h := logged_of_run hr
  obtain ⟨it, -, hit⟩ := List.countP_pos_iff.mp (Nat.lt_of_lt_of_le Nat.two_pos hover)
  have hsum : (now + duration cmd).toNat = now.toNat + (duration cmd).toNat := by
    have hlt := it.start.toNat_lt
    have hit' := of_decide_eq_true hit
    rw [UInt32.toNat_add, Nat.mod_eq_of_lt (by omega)]
  have hdue : now ≤ now + duration cmd := by
    rw [UInt32.le_iff_toNat_le, hsum]
    exact Nat.le_add_right _ _
  have horderly := h.orderly
  rw [hlog] at horderly
  obtain ⟨-, hafter, -⟩ := List.pairwise_append.mp horderly.sorted
  obtain ⟨p, hp, hne⟩ : Drives cmd := by
    refine (horderly.commands (now, cmd) (List.mem_append_right _ List.mem_cons_self)).resolve_left ?_
    rintro (rfl : cmd = Move.updt)
    rw [updateDirection_updt] at hdirection
    cases hdirection
  have hstart :
      ((Motion.start.moveUpdates l₁).moveUpdate cmd now).Ends p (now + duration cmd) 0 := by
    rw [Motion.moveUpdate_of_direction hp]
    exact ⟨rfl, rfl, rfl⟩
  have hends := hstart.polls hquiet (List.pairwise_cons.mp hafter).2
  rw [late_eq_latePolls h hlog hquiet hdue, hsum] at hends
  have hmotion : s.motion =
      ((Motion.start.moveUpdates l₁).moveUpdate cmd now).moveUpdates l₂ := by
    rw [h.motion, hlog, Motion.moveUpdates, List.foldl_append]
    rfl
  rw [hmotion]
  exact hends.pins_eq_brake_iff hne

/-- An iteration within one millisecond. -/
def atTime (time : UInt32) (usbPowerPresent : Bool) (rxByte : Option UInt8) : Input :=
  ⟨usbPowerPresent, rxByte, time, time, time, time, time, time, time⟩

/-- The bytes `s` and `d`: 20 ms forward from 100 ms on, and two iterations with the flag on. -/
theorem timed_motion_ends_polled : ∃ s : Robot,
    s.moves = [(10, Move.updt), (100, Move.updt)] ++ (100, Move.dur1 ||| Move.fwrd) ::
      [(200, Move.updt), (300, Move.updt)] ∧ s.motion.pins = brake := by
  have hrun : (exec (iteration .onAxis) Timed powerUp
      [atTime 10 false (some 0x73), atTime 100 false (some 0x64), atTime 200 false none,
        atTime 300 false none]).map
      (fun s => (s.moves, s.iterations.countP (fun it => decide (120 < it.start.toNat)),
        s.latePolls 120)) =
      some ([(10, Move.updt), (100, Move.updt)] ++ (100, Move.dur1 ||| Move.fwrd) ::
        [(200, Move.updt), (300, Move.updt)], 2, 2) := by decide +kernel
  obtain ⟨s, hr, hs⟩ := exists_run_of_exec hrun
  have hlog := congrArg Prod.fst hs
  have hover := congrArg (fun v => v.2.1) hs
  have hlate := congrArg (fun v => v.2.2) hs
  have hupdates : ∀ e ∈ [((200 : UInt32), Move.updt), (300, Move.updt)], ¬ Gives e.2 := by
    rw [List.forall_mem_cons, List.forall_mem_singleton]
    exact ⟨by decide, by decide⟩
  refine ⟨s, hlog, ?_⟩
  exact (timed_motion_ends_iff hr hlog (by decide) hupdates (Nat.le_of_eq hover.symm)).mpr
    (Nat.le_of_eq hlate.symm)

/-- With USB plugged in before the motion is over, the motors go on. -/
theorem runs_on_while_tethered :
    ¬ ∀ (s : Robot) (l₁ l₂ : List (UInt32 × UInt16)) (now : UInt32) (cmd : UInt16),
      Run (iteration .onAxis) Timed powerUp s → s.moves = l₁ ++ (now, cmd) :: l₂ →
      (updateDirection cmd.toUInt8).isSome = true → (∀ e ∈ l₂, ¬ Gives e.2) →
      2 ≤ s.iterations.countP (fun it => now.toNat + (duration cmd).toNat < it.start.toNat) →
        s.motion.pins = brake := by
  intro hall
  have hrun : (exec (iteration .onAxis) Timed powerUp
      [atTime 10 false (some 0x73), atTime 100 false (some 0x64), atTime 200 true none,
        atTime 300 true none]).map
      (fun s => (s.moves, s.iterations.countP (fun it => decide (120 < it.start.toNat)),
        s.motion.pins)) =
      some ([(10, Move.updt), (100, Move.updt)] ++ (100, Move.dur1 ||| Move.fwrd) :: [], 2,
        moveForward) := by decide +kernel
  obtain ⟨s, hr, hs⟩ := exists_run_of_exec hrun
  have hlog := congrArg Prod.fst hs
  have hover := congrArg (fun v => v.2.1) hs
  have hpins : s.motion.pins = moveForward := congrArg (fun v => v.2.2) hs
  have hbrake := hall s _ _ _ _ hr hlog (by decide) (fun _ h => nomatch h) (Nat.le_of_eq hover.symm)
  exact absurd (hpins.symm.trans hbrake) (by decide)

end Robot
end WixelSdk.LccRobot
