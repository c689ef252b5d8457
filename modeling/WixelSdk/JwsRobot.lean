import WixelSdk.FloatOps
import WixelSdk.Packet
import WixelSdk.Shuffle
import WixelSdk.Transition

/-!
# The robot of the students

`jwsRunRobot` of `wireless_serial_robot_jwsForStudents.c`. The camera's packets are recorded in
`locations`, in the places that `listOfTagsFound` gives to the tags; once all tags are found, the
search for the best path shuffles `locations`, one trial in each call, and then the robot drives
along the path.
-/

namespace WixelSdk.JwsRobot
open Transition Packet Shuffle

abbrev numberOfAprilTagLocations : ℕ := 5

abbrev numberOfTrialsWhenChoosingBestPath : ℕ := 250

abbrev myID : UInt8 := 26

abbrev offsetForName : UInt8 := 48

/-- A record, with the IDs of the packets that were averaged into its position. -/
structure AprilTagLocation where
  x : Int16
  y : Int16
  angle : Int16
  count : UInt16
  name : UInt8
  visited : Bool
  measured : List UInt8

inductive Action
  | none
  | left
  | right
  | forward
  deriving DecidableEq, Repr

/-- The variables, and whether `main` is still running. -/
structure Robot (F : Type*) where
  locations : ℕ → AprilTagLocation
  backupLocations : ℕ → AprilTagLocation
  myLocation : AprilTagLocation
  listOfTagsFound : ℕ → UInt8
  numberOfTagsFound : ℕ
  foundMyTag : Bool
  readstate : Bool
  packet : QTuple
  packetsRead : ℕ
  waitForKeyPressToStart : Bool
  firstTime : Int8
  state : Int16
  randomSamples : ℕ
  bestScore : F
  currentAction : Action
  lastTimeRobotSeen : UInt32
  running : Bool

/-- What `getRandomInRangeExclusive` returns for each tag in a shuffle. -/
structure Randoms where
  offset : ℕ → ℕ
  lt : ∀ tag < numberOfAprilTagLocations, offset tag < numberOfAprilTagLocations - tag

/-- The byte that the radio has, the random numbers, and the time at each call of `getMs`. -/
structure Input where
  rxByte : Option UInt8
  randoms : Randoms
  seenTime : UInt32
  checkTime : UInt32
  actTime : UInt32

def copyAprilTagsList (fromList toList : ℕ → AprilTagLocation) (k : ℕ) : AprilTagLocation :=
  if k < numberOfAprilTagLocations then fromList k else toList k

section

variable {F : Type*} (o : FloatOps F)

def distance (x1 y1 x2 y2 : Int16) : F :=
  o.sqrtf (o.add (o.mul (o.ofInt16 (x1 - x2)) (o.ofInt16 (x1 - x2)))
    (o.mul (o.ofInt16 (y1 - y2)) (o.ofInt16 (y1 - y2))))

def radiansToDegrees (angleInRadians : F) : F :=
  o.div (o.mul (o.ofNat 360) angleInRadians) (o.ofScientific 62831853071795864769 19)

def average (alpha old new : F) : F :=
  o.add (o.mul old (o.sub (o.ofNat 1) alpha)) (o.mul new alpha)

/-- The count of a record, and in one packet out of 32 the running average of its position. -/
def AprilTagLocation.measure (t : AprilTagLocation) (packet : QTuple) : AprilTagLocation :=
  let t := if t.count < 32000 then { t with count := t.count + 1 } else t
  if t.count % 32 = 1 ∧ t.count < 3200 then
    let alpha := o.div (o.ofNat 1) (o.ofUInt16 t.count)
    { t with
      y := o.toInt16 (average o alpha (o.ofInt16 t.y) (o.ofUInt16 (480 - packet.readY)))
      x := o.toInt16 (average o alpha (o.ofInt16 t.x) (o.ofUInt16 packet.readX))
      angle := o.toInt16 (o.keepAngleInRange (average o alpha (o.ofInt16 t.angle)
        (o.keepAngleInRange (o.ofUInt16 packet.readR))))
      measured := t.measured ++ [packet.readID] }
  else t

end

namespace Robot

variable {F : Type*} (o : FloatOps F) (s : Robot F)

def scorePath : F :=
  ((List.range numberOfAprilTagLocations).foldl (fun (score, lastX, lastY) tag =>
    let t := s.locations tag
    if t.visited then (score, lastX, lastY)
    else (o.add score (distance o lastX lastY t.x t.y), t.x, t.y))
    (o.ofNat 0, s.myLocation.x, s.myLocation.y)).1

def permuteAprilTagsList (randoms : Randoms) : Robot F :=
  { s with locations := shuffleFrom randoms.offset 0 numberOfAprilTagLocations s.locations }

def copyAprilTagsListToBackup : Robot F :=
  { s with backupLocations := copyAprilTagsList s.locations s.backupLocations }

def copyAprilTagsListFromBackup : Robot F :=
  { s with locations := copyAprilTagsList s.backupLocations s.locations }

def nextSample : Robot F := { s with randomSamples := s.randomSamples + 1 }

def findLeastCostPath (randoms : Randoms) : Robot F :=
  if s.randomSamples = 0 then
    { s.copyAprilTagsListToBackup with bestScore := s.scorePath o }.nextSample
  else if s.randomSamples = numberOfTrialsWhenChoosingBestPath then
    s.copyAprilTagsListFromBackup.nextSample
  else
    let t := (s.permuteAprilTagsList randoms).nextSample
    let score := t.scorePath o
    if o.lt score t.bestScore then { t.copyAprilTagsListToBackup with bestScore := score } else t

/-- The loop at its end only compares `listOfTagsFound[i]` with 101. -/
def initializeForShiraTaskOne (randoms : Randoms) : Robot F :=
  { s.findLeastCostPath o randoms with firstTime := 0 }

def tagAlreadyFound (someTag : UInt8) : Option ℕ :=
  (List.range numberOfAprilTagLocations).find? fun i => s.listOfTagsFound i == someTag

def readFourPackets (rxByte : Option UInt8) : Robot F :=
  if h : s.packetsRead < qTupleSize then
    match rxByte with
    | none => s
    | some byte =>
      { s with packet := s.packet.store ⟨s.packetsRead, h⟩ byte, packetsRead := s.packetsRead + 1 }
  else s

def recordMyTag (now : UInt32) : Robot F :=
  let count := if s.myLocation.count < 32000 then s.myLocation.count + 1 else 1
  { s with
    myLocation := { s.myLocation with
      y := (480 - s.packet.readY).toInt16
      x := s.packet.readX.toInt16
      angle := o.toInt16 (o.keepAngleInRange (o.ofUInt16 s.packet.readR))
      count := count
      name := if s.foundMyTag then s.myLocation.name else myID + offsetForName }
    lastTimeRobotSeen := if count % 16 = 1 then now else s.lastTimeRobotSeen
    foundMyTag := true }

def measureAt (tagIndex : ℕ) : Robot F :=
  { s with
    locations := Function.update s.locations tagIndex
      ((s.locations tagIndex).measure o s.packet) }

def addTag : Robot F :=
  let tagIndex := s.numberOfTagsFound
  { s with
    locations := Function.update s.locations tagIndex
      { (s.locations tagIndex).measure o s.packet with name := s.packet.readID + offsetForName }
    listOfTagsFound := Function.update s.listOfTagsFound tagIndex s.packet.readID
    numberOfTagsFound := s.numberOfTagsFound + 1 }

def recordTag : Robot F :=
  match s.tagAlreadyFound s.packet.readID with
  | some tagIndex => s.measureAt o tagIndex
  | none => if s.numberOfTagsFound ≥ numberOfAprilTagLocations then s else s.addTag o

def recordPacket (now : UInt32) : Robot F :=
  if myID = s.packet.readID then s.recordMyTag o now else s.recordTag o

def readCameraInfo (rxByte : Option UInt8) (now : UInt32) : Robot F :=
  let s := s.readFourPackets rxByte
  if s.packetsRead < qTupleSize then s else s.recordPacket o now

/-! After the search -/

def closeEnoughToAprilTag (tag : ℕ) : Bool :=
  o.le (distance o (s.locations tag).x (s.locations tag).y s.myLocation.x s.myLocation.y)
    (o.ofNat 15)

/-- `low < angle && angle < high` for a negative `low` -/
def within (low : ℕ) (angle : F) (high : ℕ) : Bool :=
  o.lt (o.neg (o.ofNat low)) angle && o.lt angle (o.ofNat high)

def moveTowardAprilTag (tag : ℕ) : Robot F :=
  let t := s.locations tag
  let angleToApril := o.keepAngleInRange (radiansToDegrees o
    (o.atan2f (o.ofInt16 (t.y - s.myLocation.y)) (o.ofInt16 (t.x - s.myLocation.x))))
  let angleToTurn := o.keepAngleInRange (o.sub angleToApril (o.ofInt16 s.myLocation.angle))
  let straight := match s.currentAction with
    | .none => within o 45 angleToTurn 45
    | .forward => within o 45 angleToTurn 45
    | .left => within o 45 angleToTurn 35
    | .right => within o 35 angleToTurn 45
  if straight then { s with currentAction := .forward }
  else if o.lt angleToTurn (o.ofNat 0) then { s with currentAction := .right }
  else { s with currentAction := .left }

/-- `checkAction` calls itself after a tag that is reached, and so goes through the tags in order.
`main` returns when all of them are visited. -/
def checkActionFrom : List ℕ → Robot F → Robot F
  | [], s => { s with running := false }
  | tag :: tags, s =>
    if (s.locations tag).visited then checkActionFrom tags s
    else if s.closeEnoughToAprilTag o tag then
      checkActionFrom tags { s with
        currentAction := .none
        locations := Function.update s.locations tag { s.locations tag with visited := true } }
    else s.moveTowardAprilTag o tag

def checkAction : Robot F := checkActionFrom o (List.range numberOfAprilTagLocations) s

def TaskOne : Prop := s.state > -2000 ∧ s.state ≤ -1000

instance : Decidable s.TaskOne := inferInstanceAs (Decidable (_ ∧ _))

/-- `jwsRunRobot` from the point where it no longer looks at the radio. -/
def act (inp : Input) : Robot F :=
  if s.waitForKeyPressToStart then s
  else if s.TaskOne then
    if s.randomSamples ≤ numberOfTrialsWhenChoosingBestPath then
      if s.firstTime = 0 then s.findLeastCostPath o inp.randoms else s
    else if s.currentAction ≠ .none ∧ inp.checkTime - s.lastTimeRobotSeen > 2500 then
      { s with currentAction := .none }
    else if inp.actTime - s.lastTimeRobotSeen < 2500 then s.checkAction o
    else s
  else s

def afterPacket (inp : Input) : Robot F :=
  if s.numberOfTagsFound < numberOfAprilTagLocations ∨ s.foundMyTag = false then s
  else if s.firstTime > 0 ∧ s.TaskOne then s.initializeForShiraTaskOne o inp.randoms
  else s.act o inp

def camera (inp : Input) : Robot F :=
  let s := s.readCameraInfo o inp.rxByte inp.seenTime
  if s.packetsRead ≥ qTupleSize then
    { s with packetsRead := 0, readstate := false }.afterPacket o inp
  else s.act o inp

def receive (inp : Input) : Robot F :=
  match inp.rxByte with
  | none => s.act o inp
  | some byte =>
    if checkHeader byte then
      { s with packet := s.packet.store 0 byte, packetsRead := 1, readstate := true }.act o inp
    else if s.waitForKeyPressToStart then
      if byte = 0x67 then { s with waitForKeyPressToStart := false } else s
    else s.act o inp

def greet : Robot F := if s.firstTime < 0 then { s with firstTime := 1 } else s

def jwsRunRobot (inp : Input) : Option (Robot F) :=
  if s.running = false then none
  else if s.greet.readstate then some (s.greet.camera o inp)
  else some (s.greet.receive o inp)

/-- The static variables, and what `mainPrep` writes to them. -/
def powerUp : Robot F where
  locations := fun _ => ⟨0, 0, 0, 0, 0, false, []⟩
  backupLocations := fun _ => ⟨0, 0, 0, 0, 0, false, []⟩
  myLocation := ⟨0, 0, 0, 0, 0, false, []⟩
  listOfTagsFound := fun _ => 0
  numberOfTagsFound := 0
  foundMyTag := false
  readstate := false
  packet := ⟨fun _ => 0⟩
  packetsRead := 1
  waitForKeyPressToStart := true
  firstTime := -1
  state := -1000
  randomSamples := 0
  bestScore := o.ofNat 0
  currentAction := .none
  lastTimeRobotSeen := 0
  running := true

/-! ### Records and tags -/

/-- Each of the first `n` records has the name and the measurements of its own tag only. -/
def Tagged (locations : ℕ → AprilTagLocation) (tags : ℕ → UInt8) (n : ℕ) : Prop :=
  ∀ i < n, (locations i).name = tags i + offsetForName ∧ ∀ id ∈ (locations i).measured, id = tags i

def Attached : Prop := Tagged s.locations s.listOfTagsFound s.numberOfTagsFound

/-- The packet in the buffer is one of a tag that has to be taken into the list. -/
def NewTag : Prop :=
  s.packet.readID ≠ myID ∧ s.tagAlreadyFound s.packet.readID = none ∧
    s.numberOfTagsFound < numberOfAprilTagLocations

def RecordsNewTag (inp : Input) : Prop :=
  s.readstate = true ∧ (s.readFourPackets inp.rxByte).packetsRead ≥ qTupleSize ∧
    (s.readFourPackets inp.rxByte).NewTag

def Shuffles : Prop :=
  s.waitForKeyPressToStart = false ∧ s.TaskOne ∧ s.firstTime = 0 ∧ s.randomSamples ≠ 0 ∧
    s.randomSamples < numberOfTrialsWhenChoosingBestPath

instance : Decidable s.NewTag := inferInstanceAs (Decidable (_ ∧ _ ∧ _))

instance (inp : Input) : Decidable (s.RecordsNewTag inp) := inferInstanceAs (Decidable (_ ∧ _ ∧ _))

instance : Decidable s.Shuffles := inferInstanceAs (Decidable (_ ∧ _ ∧ _ ∧ _ ∧ _))

/-- A new tag gets a record without measurements, and a shuffle leaves every record in its place. -/
def Keeps (inp : Input) : Prop :=
  (s.RecordsNewTag inp → (s.locations s.numberOfTagsFound).count = 0) ∧
    (s.Shuffles → ∀ tag < numberOfAprilTagLocations, inp.randoms.offset tag = 0)

instance (inp : Input) : Decidable (s.Keeps inp) := inferInstanceAs (Decidable ((_ → _) ∧ (_ → _)))

end Robot

namespace AprilTagLocation

variable {F : Type*} (o : FloatOps F) (t : AprilTagLocation) (p : QTuple)

theorem count_measure :
    (t.measure o p).count = if t.count < 32000 then t.count + 1 else t.count := by
  unfold measure
  dsimp only
  split_ifs <;> rfl

theorem count_measure_ne_zero : (t.measure o p).count ≠ 0 := by
  rw [count_measure]
  split_ifs with h <;> intro hz
  · rw [UInt16.lt_iff_toNat_lt, UInt16.toNat_ofNat] at h
    have hsum := congrArg UInt16.toNat hz
    rw [UInt16.toNat_add, UInt16.toNat_one, UInt16.toNat_zero] at hsum
    omega
  · rw [hz] at h
    exact h (by decide)

theorem name_measure : (t.measure o p).name = t.name := by
  unfold measure
  dsimp only
  split_ifs <;> rfl

theorem measured_measure : (t.measure o p).measured = t.measured ∨
    (t.measure o p).measured = t.measured ++ [p.readID] := by
  unfold measure
  dsimp only
  split_ifs
  all_goals first
    | exact .inl rfl
    | exact .inr rfl

theorem forall_measured {P : UInt8 → Prop} (h : ∀ id ∈ t.measured, P id) (hp : P p.readID) :
    ∀ id ∈ (t.measure o p).measured, P id := by
  intro id hid
  rcases t.measured_measure o p with he | he <;> rw [he] at hid
  · exact h id hid
  · rcases List.mem_append.mp hid with hid | hid
    · exact h id hid
    · rw [List.mem_singleton.mp hid]
      exact hp

theorem measured_subset {id : UInt8} (h : id ∈ t.measured) : id ∈ (t.measure o p).measured := by
  rcases t.measured_measure o p with he | he <;> rw [he]
  · exact h
  · exact List.mem_append_left _ h

theorem measured_measure_ne_nil (h : t.measured = [] → t.count = 0) :
    (t.measure o p).measured ≠ [] := by
  by_cases hnil : t.measured = []
  · have hcount := h hnil
    have hlt : t.count < 32000 := by rw [hcount]; decide
    have hfirst : (t.count + 1) % 32 = 1 ∧ t.count + 1 < 3200 := by rw [hcount]; decide
    unfold measure
    dsimp only
    rw [if_pos hlt, if_pos hfirst]
    exact List.append_ne_nil_of_right_ne_nil _ (List.cons_ne_nil _ _)
  · obtain ⟨id, hid⟩ := List.exists_mem_of_ne_nil _ hnil
    exact List.ne_nil_of_mem (t.measured_subset o p hid)

end AprilTagLocation

namespace Robot

variable {F : Type*} {o : FloatOps F} {s t : Robot F} {inp : Input}

/-- What holds as long as every call keeps the records attached. Places that are not in use yet are
found for the tag 0, so that its packets are measured there. -/
structure Sound (s : Robot F) : Prop where
  attached : s.Attached
  count : s.numberOfTagsFound ≤ numberOfAprilTagLocations
  used : ∀ i < s.numberOfTagsFound, s.listOfTagsFound i ≠ 0
  unused : ∀ i, s.numberOfTagsFound ≤ i → s.listOfTagsFound i = 0
  distinct : ∀ i < s.numberOfTagsFound, ∀ j < s.numberOfTagsFound,
    s.listOfTagsFound i = s.listOfTagsFound j → i = j
  stray : ∀ i, s.numberOfTagsFound ≤ i → (∀ id ∈ (s.locations i).measured, id = 0) ∧
    ((s.locations i).measured = [] ↔ (s.locations i).count = 0)
  searching : s.firstTime = 0 →
    s.numberOfTagsFound = numberOfAprilTagLocations ∧ s.foundMyTag = true ∧ s.randomSamples ≠ 0
  waiting : s.firstTime ≠ 0 → s.randomSamples = 0
  backup : s.randomSamples ≠ 0 → Tagged s.backupLocations s.listOfTagsFound s.numberOfTagsFound

theorem sound_powerUp (o : FloatOps F) : (powerUp o).Sound where
  attached := fun _ hi => absurd hi (Nat.not_lt_zero _)
  count := Nat.zero_le _
  used _ hi := absurd hi (Nat.not_lt_zero _)
  unused _ _ := rfl
  distinct _ hi := absurd hi (Nat.not_lt_zero _)
  stray _ _ := ⟨fun _ hid => (nomatch hid), iff_of_true rfl rfl⟩
  searching h := by
    change (-1 : Int8) = 0 at h
    cases h
  waiting _ := rfl
  backup h := absurd rfl h

/-- `t` differs from `s` only in what the records and their places do not depend on. -/
structure SameRecords (s t : Robot F) : Prop where
  name : ∀ i, (t.locations i).name = (s.locations i).name
  measured : ∀ i, (t.locations i).measured = (s.locations i).measured
  count : ∀ i, (t.locations i).count = (s.locations i).count
  backupLocations : t.backupLocations = s.backupLocations
  listOfTagsFound : t.listOfTagsFound = s.listOfTagsFound
  numberOfTagsFound : t.numberOfTagsFound = s.numberOfTagsFound
  foundMyTag : t.foundMyTag = s.foundMyTag
  firstTime : t.firstTime = s.firstTime
  randomSamples : t.randomSamples = s.randomSamples

theorem SameRecords.of_eq (hlocations : t.locations = s.locations)
    (hbackup : t.backupLocations = s.backupLocations)
    (htags : t.listOfTagsFound = s.listOfTagsFound)
    (hnumber : t.numberOfTagsFound = s.numberOfTagsFound) (hmine : t.foundMyTag = s.foundMyTag)
    (hfirst : t.firstTime = s.firstTime) (hsamples : t.randomSamples = s.randomSamples) :
    s.SameRecords t :=
  ⟨fun i => by rw [hlocations], fun i => by rw [hlocations], fun i => by rw [hlocations], hbackup,
    htags, hnumber, hmine, hfirst, hsamples⟩

theorem SameRecords.trans {u : Robot F} (h : s.SameRecords t) (h' : t.SameRecords u) :
    s.SameRecords u :=
  ⟨fun i => (h'.name i).trans (h.name i), fun i => (h'.measured i).trans (h.measured i),
    fun i => (h'.count i).trans (h.count i), h'.backupLocations.trans h.backupLocations,
    h'.listOfTagsFound.trans h.listOfTagsFound, h'.numberOfTagsFound.trans h.numberOfTagsFound,
    h'.foundMyTag.trans h.foundMyTag, h'.firstTime.trans h.firstTime,
    h'.randomSamples.trans h.randomSamples⟩

theorem SameRecords.attached_iff (h : s.SameRecords t) : t.Attached ↔ s.Attached := by
  unfold Attached Tagged
  simp only [h.name, h.measured, h.listOfTagsFound, h.numberOfTagsFound]

theorem Sound.congr (hs : s.Sound) (h : s.SameRecords t) : t.Sound where
  attached := h.attached_iff.mpr hs.attached
  count := by rw [h.numberOfTagsFound]; exact hs.count
  used := by rw [h.numberOfTagsFound, h.listOfTagsFound]; exact hs.used
  unused := by rw [h.numberOfTagsFound, h.listOfTagsFound]; exact hs.unused
  distinct := by rw [h.numberOfTagsFound, h.listOfTagsFound]; exact hs.distinct
  stray i hi := by
    rw [h.numberOfTagsFound] at hi
    rw [h.measured, h.count]
    exact hs.stray i hi
  searching hf := by
    rw [h.firstTime] at hf
    rw [h.numberOfTagsFound, h.foundMyTag, h.randomSamples]
    exact hs.searching hf
  waiting := by rw [h.firstTime, h.randomSamples]; exact hs.waiting
  backup := by
    rw [h.randomSamples, h.backupLocations, h.listOfTagsFound, h.numberOfTagsFound]
    exact hs.backup

/-! ### Driving -/

theorem sameRecords_moveTowardAprilTag (o : FloatOps F) (s : Robot F) (tag : ℕ) :
    s.SameRecords (s.moveTowardAprilTag o tag) := by
  unfold moveTowardAprilTag
  dsimp only
  split_ifs <;> exact .of_eq rfl rfl rfl rfl rfl rfl rfl

theorem sameRecords_visit (s : Robot F) (tag : ℕ) : s.SameRecords { s with
    currentAction := .none
    locations := Function.update s.locations tag { s.locations tag with visited := true } } := by
  have hlocations : ∀ i, Function.update s.locations tag { s.locations tag with visited := true } i =
      { s.locations i with visited := if i = tag then true else (s.locations i).visited } := by
    intro i
    by_cases hi : i = tag
    · subst hi
      rw [Function.update_self, if_pos rfl]
    · rw [Function.update_of_ne hi, if_neg hi]
  refine ⟨fun i => ?_, fun i => ?_, fun i => ?_, rfl, rfl, rfl, rfl, rfl, rfl⟩
  all_goals
    dsimp only
    rw [hlocations]

theorem sameRecords_checkActionFrom (o : FloatOps F) (tags : List ℕ) (s : Robot F) :
    s.SameRecords (checkActionFrom o tags s) := by
  induction tags generalizing s with
  | nil => exact .of_eq rfl rfl rfl rfl rfl rfl rfl
  | cons tag tags ih =>
      rw [checkActionFrom]
      split_ifs
      · exact ih s
      · exact (s.sameRecords_visit tag).trans (ih _)
      · exact s.sameRecords_moveTowardAprilTag o tag

/-! ### The path search -/

theorem tagged_copyAprilTagsList {a b : ℕ → AprilTagLocation} {tags : ℕ → UInt8} {n : ℕ}
    (hn : n ≤ numberOfAprilTagLocations) (h : Tagged a tags n) :
    Tagged (copyAprilTagsList a b) tags n := by
  intro i hi
  rw [copyAprilTagsList, if_pos (Nat.lt_of_lt_of_le hi hn)]
  exact h i hi

theorem Sound.backup_tagged (h : s.Sound) (hfull : s.numberOfTagsFound = numberOfAprilTagLocations) :
    Tagged (copyAprilTagsList s.locations s.backupLocations) s.listOfTagsFound s.numberOfTagsFound :=
  tagged_copyAprilTagsList (Nat.le_of_eq hfull) h.attached

/-- With all tags found, no place is left to be used. -/
theorem Sound.of_full (h : s.Sound) (hfull : s.numberOfTagsFound = numberOfAprilTagLocations)
    (hnumber : t.numberOfTagsFound = s.numberOfTagsFound)
    (htags : t.listOfTagsFound = s.listOfTagsFound)
    (hattached : Tagged t.locations s.listOfTagsFound s.numberOfTagsFound)
    (hbackup : Tagged t.backupLocations s.listOfTagsFound s.numberOfTagsFound)
    (hlocations : ∀ i, numberOfAprilTagLocations ≤ i → t.locations i = s.locations i)
    (hmine : t.foundMyTag = true) (hfirst : t.firstTime = 0) (hsamples : t.randomSamples ≠ 0) :
    t.Sound where
  attached := by rw [Attached, hnumber, htags]; exact hattached
  count := by rw [hnumber]; exact h.count
  used := by rw [hnumber, htags]; exact h.used
  unused := by rw [hnumber, htags]; exact h.unused
  distinct := by rw [hnumber, htags]; exact h.distinct
  stray i hi := by
    rw [hnumber] at hi
    rw [hlocations i (hfull ▸ hi)]
    exact h.stray i hi
  searching _ := ⟨hnumber.trans hfull, hmine, hsamples⟩
  waiting hne := absurd hfirst hne
  backup _ := by rw [hnumber, htags]; exact hbackup

theorem Sound.initializeForShiraTaskOne (h : s.Sound) (o : FloatOps F) (randoms : Randoms)
    (hfull : s.numberOfTagsFound = numberOfAprilTagLocations) (hmine : s.foundMyTag = true)
    (hfirst : s.firstTime ≠ 0) : (s.initializeForShiraTaskOne o randoms).Sound := by
  have hzero := h.waiting hfirst
  unfold Robot.initializeForShiraTaskOne findLeastCostPath
  rw [if_pos hzero]
  exact h.of_full hfull rfl rfl h.attached (h.backup_tagged hfull) (fun _ _ => rfl) hmine rfl
    (Nat.succ_ne_zero _)

theorem locations_initializeForShiraTaskOne (o : FloatOps F) (randoms : Randoms)
    (hzero : s.randomSamples = 0) :
    (s.initializeForShiraTaskOne o randoms).Attached ↔ s.Attached := by
  unfold Robot.initializeForShiraTaskOne findLeastCostPath
  rw [if_pos hzero]
  exact Iff.rfl

theorem Sound.permute (h : s.Sound) (o : FloatOps F) (randoms : Randoms) (hfirst : s.firstTime = 0)
    (hpermute : s.randomSamples ≠ numberOfTrialsWhenChoosingBestPath)
    (hkeep : ∀ tag < numberOfAprilTagLocations, randoms.offset tag = 0) :
    (s.findLeastCostPath o randoms).Sound := by
  obtain ⟨hfull, hmine, hsamples⟩ := h.searching hfirst
  have hself : shuffleFrom randoms.offset 0 numberOfAprilTagLocations s.locations = s.locations :=
    shuffleFrom_eq_self fun i _ hi => hkeep i (by rwa [Nat.zero_add] at hi)
  unfold findLeastCostPath
  rw [if_neg hsamples, if_neg hpermute, permuteAprilTagsList, hself]
  dsimp only
  split_ifs
  · exact h.of_full hfull rfl rfl h.attached (h.backup_tagged hfull) (fun _ _ => rfl) hmine hfirst
      (Nat.succ_ne_zero _)
  · exact h.of_full hfull rfl rfl h.attached (h.backup hsamples) (fun _ _ => rfl) hmine hfirst
      (Nat.succ_ne_zero _)

theorem Sound.restore (h : s.Sound) (o : FloatOps F) (randoms : Randoms) (hfirst : s.firstTime = 0)
    (hlast : s.randomSamples = numberOfTrialsWhenChoosingBestPath) :
    (s.findLeastCostPath o randoms).Sound := by
  obtain ⟨hfull, hmine, hsamples⟩ := h.searching hfirst
  unfold findLeastCostPath
  rw [if_neg hsamples, if_pos hlast]
  refine h.of_full hfull rfl rfl ?_ (h.backup hsamples) (fun i hi => ?_) hmine hfirst
    (Nat.succ_ne_zero _)
  · exact tagged_copyAprilTagsList (Nat.le_of_eq hfull) (h.backup hsamples)
  · exact if_neg (Nat.not_lt.mpr hi)

/-- A shuffle that moves some record. -/
theorem Sound.not_attached_permute (h : s.Sound) (o : FloatOps F) (randoms : Randoms)
    (hfirst : s.firstTime = 0) (hpermute : s.randomSamples ≠ numberOfTrialsWhenChoosingBestPath)
    (hmove : ¬ ∀ tag < numberOfAprilTagLocations, randoms.offset tag = 0) :
    ¬ (s.findLeastCostPath o randoms).Attached := by
  obtain ⟨hfull, -, hsamples⟩ := h.searching hfirst
  have hmoved : ¬ Tagged (shuffleFrom randoms.offset 0 numberOfAprilTagLocations s.locations)
      s.listOfTagsFound s.numberOfTagsFound := by
    intro htagged
    rw [hfull] at htagged
    have hattached := h.attached
    rw [Attached, hfull] at hattached
    have hdistinct := h.distinct
    rw [hfull] at hdistinct
    have hnames : ∀ i < numberOfAprilTagLocations, ∀ j < numberOfAprilTagLocations,
        (s.locations i).name = (s.locations j).name → i = j := by
      intro i hi j hj he
      rw [(hattached i hi).1, (hattached j hj).1] at he
      exact hdistinct i hi j hj ((UInt8.add_left_inj _).mp he)
    exact hmove (shuffle_offset_eq_zero hnames randoms.lt fun i hi =>
      (htagged i hi).1.trans (hattached i hi).1.symm)
  unfold findLeastCostPath
  rw [if_neg hsamples, if_neg hpermute]
  dsimp only
  split_ifs <;> exact hmoved

/-! ### Packets -/

theorem tagAlreadyFound_eq_some {id : UInt8} {k : ℕ} (h : s.tagAlreadyFound id = some k) :
    s.listOfTagsFound k = id := by
  have hk := List.find?_some h
  exact beq_iff_eq.mp hk

theorem tagAlreadyFound_eq_none {id : UInt8} (h : s.tagAlreadyFound id = none) {k : ℕ}
    (hk : k < numberOfAprilTagLocations) : s.listOfTagsFound k ≠ id := by
  have hne := List.find?_eq_none.mp h k (List.mem_range.mpr hk)
  exact fun he => hne (beq_iff_eq.mpr he)

/-- A tag that is in the list, or the tag 0, which is found in every place that is not in use. -/
theorem Sound.measureAt (h : s.Sound) (o : FloatOps F) {k : ℕ}
    (hk : s.listOfTagsFound k = s.packet.readID) : (s.measureAt o k).Sound := by
  refine { h with attached := fun i hi => ?_, stray := fun i hi => ?_ }
  · by_cases hik : i = k
    · subst hik
      obtain ⟨hname, hmeasured⟩ := h.attached i hi
      dsimp only [Robot.measureAt]
      rw [Function.update_self, AprilTagLocation.name_measure]
      exact ⟨hname, AprilTagLocation.forall_measured _ _ _ hmeasured hk.symm⟩
    · dsimp only [Robot.measureAt]
      rw [Function.update_of_ne hik]
      exact h.attached i hi
  · by_cases hik : i = k
    · subst hik
      obtain ⟨hmeasured, hnil⟩ := h.stray i hi
      dsimp only [Robot.measureAt]
      rw [Function.update_self]
      refine ⟨AprilTagLocation.forall_measured _ _ _ hmeasured (hk.symm.trans (h.unused i hi)), ?_⟩
      exact iff_of_false (AprilTagLocation.measured_measure_ne_nil _ _ _ hnil.mp)
        (AprilTagLocation.count_measure_ne_zero _ _ _)
    · dsimp only [Robot.measureAt]
      rw [Function.update_of_ne hik]
      exact h.stray i hi

theorem Sound.not_searching (h : s.Sound) (hlt : s.numberOfTagsFound < numberOfAprilTagLocations) :
    s.firstTime ≠ 0 := fun hfirst => Nat.ne_of_lt hlt (h.searching hfirst).1

theorem Sound.readID_ne_zero (h : s.Sound) (hfound : s.tagAlreadyFound s.packet.readID = none)
    (hlt : s.numberOfTagsFound < numberOfAprilTagLocations) : s.packet.readID ≠ 0 := fun hz =>
  tagAlreadyFound_eq_none hfound hlt ((h.unused _ (Nat.le_refl _)).trans hz.symm)

theorem Sound.addTag (h : s.Sound) (o : FloatOps F)
    (hfound : s.tagAlreadyFound s.packet.readID = none)
    (hlt : s.numberOfTagsFound < numberOfAprilTagLocations)
    (hcount : (s.locations s.numberOfTagsFound).count = 0) : (s.addTag o).Sound := by
  have hfirst := h.not_searching hlt
  have hzero := h.readID_ne_zero hfound hlt
  have hempty := (h.stray _ (Nat.le_refl _)).2.mpr hcount
  have hother : ∀ i < s.numberOfTagsFound, s.listOfTagsFound i ≠ s.packet.readID :=
    fun i hi => tagAlreadyFound_eq_none hfound (Nat.lt_trans hi hlt)
  have hold : ∀ i < s.numberOfTagsFound, (s.addTag o).listOfTagsFound i = s.listOfTagsFound i :=
    fun i hi => Function.update_of_ne (Nat.ne_of_lt hi) _ _
  have hnew : (s.addTag o).listOfTagsFound s.numberOfTagsFound = s.packet.readID :=
    Function.update_self ..
  have hcases : ∀ i < (s.addTag o).numberOfTagsFound,
      i < s.numberOfTagsFound ∨ i = s.numberOfTagsFound := fun i hi =>
    Nat.lt_or_eq_of_le (Nat.le_of_lt_succ hi)
  refine ⟨fun i hi => ?_, hlt, fun i hi => ?_, fun i hi => ?_, fun i hi j hj he => ?_,
    fun i hi => ?_, fun hf => absurd hf hfirst, h.waiting,
    fun hsamples => absurd (h.waiting hfirst) hsamples⟩
  · rcases hcases i hi with hi | rfl
    · rw [hold i hi]
      have hsame : (s.addTag o).locations i = s.locations i :=
        Function.update_of_ne (Nat.ne_of_lt hi) _ _
      rw [hsame]
      exact h.attached i hi
    · rw [hnew]
      dsimp only [Robot.addTag]
      rw [Function.update_self]
      refine ⟨rfl, AprilTagLocation.forall_measured _ _ _ ?_ rfl⟩
      rw [hempty]
      exact fun _ hid => nomatch hid
  · rcases hcases i hi with hi | rfl
    · rw [hold i hi]
      exact h.used i hi
    · rw [hnew]
      exact hzero
  · have hne : i ≠ s.numberOfTagsFound := Nat.ne_of_gt (Nat.lt_of_succ_le hi)
    exact (Function.update_of_ne hne _ _).trans (h.unused i (Nat.le_of_succ_le hi))
  · rcases hcases i hi with hi | rfl <;> rcases hcases j hj with hj | rfl
    · rw [hold i hi, hold j hj] at he
      exact h.distinct i hi j hj he
    · rw [hold i hi, hnew] at he
      exact absurd he (hother i hi)
    · rw [hold j hj, hnew] at he
      exact absurd he.symm (hother j hj)
    · rfl
  · have hne : i ≠ s.numberOfTagsFound := Nat.ne_of_gt (Nat.lt_of_succ_le hi)
    have hsame : (s.addTag o).locations i = s.locations i := Function.update_of_ne hne _ _
    rw [hsame]
    exact h.stray i (Nat.le_of_succ_le hi)

/-- Measurements of the tag 0 stay in the record. -/
theorem Sound.not_attached_addTag (h : s.Sound) (o : FloatOps F)
    (hfound : s.tagAlreadyFound s.packet.readID = none)
    (hlt : s.numberOfTagsFound < numberOfAprilTagLocations)
    (hcount : (s.locations s.numberOfTagsFound).count ≠ 0) : ¬ (s.addTag o).Attached := by
  obtain ⟨hzero, hnil⟩ := h.stray _ (Nat.le_refl _)
  obtain ⟨id, hmem⟩ := List.exists_mem_of_ne_nil _ (hnil.not.mpr hcount)
  intro hattached
  have hnew := (hattached s.numberOfTagsFound (Nat.lt_succ_self _)).2 id
  dsimp only [Robot.addTag] at hnew
  rw [Function.update_self, Function.update_self] at hnew
  have heq := hnew (AprilTagLocation.measured_subset _ _ _ hmem)
  rw [hzero id hmem] at heq
  exact h.readID_ne_zero hfound hlt heq.symm

theorem Sound.recordMyTag (h : s.Sound) (o : FloatOps F) (now : UInt32) :
    (s.recordMyTag o now).Sound :=
  { h with searching := fun hf => ⟨(h.searching hf).1, rfl, (h.searching hf).2.2⟩ }

theorem recordPacket_of_newTag (o : FloatOps F) (now : UInt32) (h : s.NewTag) :
    s.recordPacket o now = s.addTag o := by
  unfold recordPacket recordTag
  rw [if_neg h.1.symm, h.2.1]
  exact if_neg (Nat.not_le.mpr h.2.2)

theorem Sound.recordPacket (h : s.Sound) (o : FloatOps F) (now : UInt32) (hnew : ¬ s.NewTag) :
    (s.recordPacket o now).Sound := by
  unfold Robot.recordPacket
  split_ifs with hmine
  · exact h.recordMyTag o now
  · unfold recordTag
    cases hfound : s.tagAlreadyFound s.packet.readID with
    | some k => exact h.measureAt o (tagAlreadyFound_eq_some hfound)
    | none =>
        have hfull : s.numberOfTagsFound ≥ numberOfAprilTagLocations := by
          by_contra hlt
          exact hnew ⟨fun he => hmine he.symm, hfound, Nat.not_le.mp hlt⟩
        dsimp only
        rw [if_pos hfull]
        exact h

/-! ### Calls -/

def Unshuffled (inp : Input) : Prop := ∀ tag < numberOfAprilTagLocations, inp.randoms.offset tag = 0

/-- `K` decides whether the records are attached in `t`. -/
structure Decides (K : Prop) (t : Robot F) : Prop where
  sound : K → t.Sound
  not_attached : ¬ K → ¬ t.Attached

theorem Decides.congr {K K' : Prop} (h : Decides K t) (hk : K' ↔ K) : Decides K' t :=
  ⟨fun h' => h.sound (hk.mp h'), fun h' => h.not_attached (hk.not.mp h')⟩

theorem act_eq_self (hfirst : s.firstTime ≠ 0) (hzero : s.randomSamples = 0) : s.act o inp = s := by
  unfold act
  rw [hzero, if_pos (Nat.zero_le _), if_neg hfirst, ite_self, ite_self]

theorem Sound.act (h : s.Sound) (o : FloatOps F) (inp : Input) :
    Decides (s.Shuffles → Unshuffled inp) (s.act o inp) := by
  constructor
  · intro hkeep
    unfold Robot.act
    split_ifs with hwait htask hsearch hfirst hlost hseen
    · exact h
    · by_cases hlast : s.randomSamples = numberOfTrialsWhenChoosingBestPath
      · exact h.restore o _ hfirst hlast
      · obtain ⟨-, -, hsamples⟩ := h.searching hfirst
        exact h.permute o _ hfirst hlast (hkeep ⟨Bool.eq_false_iff.mpr hwait, htask, hfirst,
          hsamples, Nat.lt_of_le_of_ne hsearch hlast⟩)
    · exact h
    · exact h.congr (.of_eq rfl rfl rfl rfl rfl rfl rfl)
    · exact h.congr (sameRecords_checkActionFrom o _ s)
    · exact h
    · exact h
  · intro hmove
    obtain ⟨⟨hwait, htask, hfirst, -, hlt⟩, hoffset⟩ := Classical.not_imp.mp hmove
    unfold Robot.act
    rw [hwait, if_neg Bool.false_ne_true, if_pos htask, if_pos (Nat.le_of_lt hlt), if_pos hfirst]
    exact h.not_attached_permute o _ hfirst (Nat.ne_of_lt hlt) hoffset

theorem Sound.afterPacket (h : s.Sound) (o : FloatOps F) (inp : Input) :
    Decides (s.Shuffles → Unshuffled inp) (s.afterPacket o inp) := by
  unfold Robot.afterPacket
  split_ifs with hmissing hstart
  · refine ⟨fun _ => h, fun hmove => ?_⟩
    obtain ⟨hfull, hmine, -⟩ := h.searching (Classical.not_imp.mp hmove).1.2.2.1
    rcases hmissing with hlt | hnone
    · exact absurd hfull (Nat.ne_of_lt hlt)
    · exact absurd (hnone.symm.trans hmine) Bool.false_ne_true
  · have hfirst : s.firstTime ≠ 0 := fun hz => absurd (hz ▸ hstart.1) (by decide)
    obtain ⟨hfull, hmine⟩ := not_or.mp hmissing
    refine ⟨fun _ => ?_, fun hmove => absurd (Classical.not_imp.mp hmove).1.2.2.1 hfirst⟩
    exact h.initializeForShiraTaskOne o _ (Nat.le_antisymm h.count (Nat.not_lt.mp hfull))
      (Bool.eq_true_of_not_eq_false hmine) hfirst
  · exact h.act o inp

/-- Before the search, what comes after a packet leaves the records as they are. -/
theorem attached_afterPacket (hfirst : s.firstTime ≠ 0) (hzero : s.randomSamples = 0) :
    (s.afterPacket o inp).Attached ↔ s.Attached := by
  unfold Robot.afterPacket
  split_ifs
  · exact Iff.rfl
  · exact locations_initializeForShiraTaskOne o _ hzero
  · rw [act_eq_self hfirst hzero]

theorem sameRecords_readFourPackets (s : Robot F) (rx : Option UInt8) :
    s.SameRecords (s.readFourPackets rx) := by
  unfold readFourPackets
  cases rx <;> split_ifs <;> exact .of_eq rfl rfl rfl rfl rfl rfl rfl

theorem shuffles_readFourPackets (s : Robot F) (rx : Option UInt8) :
    (s.readFourPackets rx).Shuffles ↔ s.Shuffles := by
  unfold readFourPackets
  cases rx <;> split_ifs <;> exact Iff.rfl

theorem shuffles_recordPacket (o : FloatOps F) (s : Robot F) (now : UInt32) :
    (s.recordPacket o now).Shuffles ↔ s.Shuffles := by
  unfold recordPacket
  split_ifs
  · exact Iff.rfl
  · unfold recordTag
    cases s.tagAlreadyFound s.packet.readID with
    | some k => exact Iff.rfl
    | none =>
        dsimp only
        split_ifs <;> exact Iff.rfl

theorem packetsRead_recordPacket (o : FloatOps F) (s : Robot F) (now : UInt32) :
    (s.recordPacket o now).packetsRead = s.packetsRead := by
  unfold recordPacket
  split_ifs
  · rfl
  · unfold recordTag
    cases s.tagAlreadyFound s.packet.readID with
    | some k => rfl
    | none =>
        dsimp only
        split_ifs <;> rfl

/-- A complete packet and what comes after it. -/
theorem Sound.packet (h : s.Sound) (o : FloatOps F) (inp : Input) :
    Decides ((s.NewTag → (s.locations s.numberOfTagsFound).count = 0) ∧
      (s.Shuffles → Unshuffled inp))
      ({ s.recordPacket o inp.seenTime with packetsRead := 0, readstate := false }.afterPacket o
        inp) := by
  by_cases hnew : s.NewTag
  · have hfirst := h.not_searching hnew.2.2
    have hidle : s.Shuffles → Unshuffled inp := fun hs => absurd hs.2.2.1 hfirst
    rw [recordPacket_of_newTag o inp.seenTime hnew]
    constructor
    · rintro ⟨hcount, -⟩
      have hadd := (h.addTag o hnew.2.1 hnew.2.2 (hcount hnew)).congr (t := { s.addTag o with
        packetsRead := 0, readstate := false }) (.of_eq rfl rfl rfl rfl rfl rfl rfl)
      exact (hadd.afterPacket o inp).sound fun hs => absurd hs.2.2.1 hfirst
    · intro hbad
      have hcount : (s.locations s.numberOfTagsFound).count ≠ 0 := fun hz =>
        hbad ⟨fun _ => hz, hidle⟩
      refine (attached_afterPacket ?_ ?_).not.mpr (h.not_attached_addTag o hnew.2.1 hnew.2.2 hcount)
      · exact hfirst
      · exact h.waiting hfirst
  · have hpacket := (h.recordPacket o inp.seenTime hnew).congr
      (t := { s.recordPacket o inp.seenTime with packetsRead := 0, readstate := false })
      (.of_eq rfl rfl rfl rfl rfl rfl rfl)
    have hshuffles : Shuffles { s.recordPacket o inp.seenTime with
        packetsRead := 0, readstate := false } ↔ s.Shuffles := s.shuffles_recordPacket o inp.seenTime
    refine (hpacket.afterPacket o inp).congr ?_
    rw [hshuffles]
    exact and_iff_right fun hn => absurd hn hnew

theorem Sound.camera (h : s.Sound) (o : FloatOps F) (inp : Input) (hread : s.readstate = true) :
    Decides (s.Keeps inp) (s.camera o inp) := by
  have hsame := s.sameRecords_readFourPackets inp.rxByte
  have hshuffles := s.shuffles_readFourPackets inp.rxByte
  have hu := h.congr hsame
  have hkeeps : s.Keeps inp ↔
      (((s.readFourPackets inp.rxByte).packetsRead ≥ qTupleSize ∧
        (s.readFourPackets inp.rxByte).NewTag →
          ((s.readFourPackets inp.rxByte).locations
            (s.readFourPackets inp.rxByte).numberOfTagsFound).count = 0) ∧
        ((s.readFourPackets inp.rxByte).Shuffles → Unshuffled inp)) := by
    unfold Keeps RecordsNewTag Unshuffled
    rw [hshuffles, hsame.numberOfTagsFound, hsame.count]
    simp only [hread, true_and]
  refine Decides.congr ?_ hkeeps
  unfold Robot.camera readCameraInfo
  dsimp only
  generalize s.readFourPackets inp.rxByte = u at hu ⊢
  by_cases hdone : u.packetsRead < qTupleSize
  · rw [if_pos hdone, if_neg (Nat.not_le.mpr hdone)]
    refine (hu.act o inp).congr (and_iff_right fun hn => ?_)
    exact absurd hn.1 (Nat.not_le.mpr hdone)
  · rw [if_neg hdone, packetsRead_recordPacket, if_pos (Nat.not_lt.mp hdone)]
    refine (hu.packet o inp).congr ?_
    simp only [ge_iff_le, Nat.not_lt.mp hdone, true_and]

theorem Sound.receive (h : s.Sound) (o : FloatOps F) (inp : Input) (hread : s.readstate = false) :
    Decides (s.Keeps inp) (s.receive o inp) := by
  have hkeeps : s.Keeps inp ↔ (s.Shuffles → Unshuffled inp) :=
    and_iff_right fun hn => absurd (hread.symm.trans hn.1) Bool.false_ne_true
  refine Decides.congr ?_ hkeeps
  unfold Robot.receive
  cases inp.rxByte with
  | none => exact h.act o inp
  | some byte =>
      dsimp only
      split_ifs with hheader hwait hgo
      · have hu := h.congr (t := { s with
          packet := s.packet.store 0 byte, packetsRead := 1, readstate := true })
          (.of_eq rfl rfl rfl rfl rfl rfl rfl)
        exact hu.act o inp
      · refine ⟨fun _ => h.congr (.of_eq rfl rfl rfl rfl rfl rfl rfl), fun hmove => ?_⟩
        exact absurd ((Classical.not_imp.mp hmove).1.1.symm.trans hwait) Bool.false_ne_true
      · refine ⟨fun _ => h, fun hmove => ?_⟩
        exact absurd ((Classical.not_imp.mp hmove).1.1.symm.trans hwait) Bool.false_ne_true
      · exact h.act o inp

theorem Sound.greet (h : s.Sound) : s.greet.Sound := by
  unfold Robot.greet
  split_ifs with hnew
  · have hfirst : s.firstTime ≠ 0 := fun hz => absurd (hz ▸ hnew) (by decide)
    have hone : (1 : Int8) ≠ 0 := by decide
    exact { h with searching := fun hf => absurd hf hone, waiting := fun _ => h.waiting hfirst }
  · exact h

theorem keeps_greet (s : Robot F) (inp : Input) : s.greet.Keeps inp ↔ s.Keeps inp := by
  unfold greet
  split_ifs with hnew
  · have hfirst : s.firstTime ≠ 0 := fun hz => absurd (hz ▸ hnew) (by decide)
    have hone : (1 : Int8) ≠ 0 := by decide
    have hread : readFourPackets { s with firstTime := 1 } inp.rxByte =
        { s.readFourPackets inp.rxByte with firstTime := 1 } := by
      unfold readFourPackets
      cases inp.rxByte <;> split_ifs <;> rfl
    have hrecords : RecordsNewTag { s with firstTime := 1 } inp ↔ s.RecordsNewTag inp := by
      unfold RecordsNewTag
      rw [hread]
      exact Iff.rfl
    refine and_congr (imp_congr hrecords Iff.rfl) ?_
    exact iff_of_true (fun hs => absurd hs.2.2.1 hone) fun hs => absurd hs.2.2.1 hfirst
  · exact Iff.rfl

/-- What a call does to the records. -/
theorem Sound.jwsRunRobot (h : s.Sound) (ht : s.jwsRunRobot o inp = some t) :
    Decides (s.Keeps inp) t := by
  unfold Robot.jwsRunRobot at ht
  refine Decides.congr ?_ (s.keeps_greet inp).symm
  split_ifs at ht with hrunning hread
  · obtain rfl := Option.some.inj ht
    exact h.greet.camera o inp hread
  · obtain rfl := Option.some.inj ht
    exact h.greet.receive o inp (Bool.eq_false_iff.mpr hread)

theorem sound_of_run (hr : Run (jwsRunRobot o) Keeps (powerUp o) s) : s.Sound :=
  Run.invariant hr (sound_powerUp o) fun _ _ _ h hkeep ht => (h.jwsRunRobot ht).sound hkeep

/-- As long as every call keeps the records attached they are, and it is exactly those calls that
do. -/
theorem records_attached_iff (hr : Run (jwsRunRobot o) Keeps (powerUp o) s) :
    s.Attached ∧ ∀ inp t, s.jwsRunRobot o inp = some t → (t.Attached ↔ s.Keeps inp) := by
  have h := sound_of_run hr
  refine ⟨h.attached, fun inp t ht => ⟨fun hattached => ?_, fun hkeep => ?_⟩⟩
  · by_contra hmove
    exact (h.jwsRunRobot ht).not_attached hmove hattached
  · exact ((h.jwsRunRobot ht).sound hkeep).attached

/-! ### Runs -/

/-- A call with a shuffle that exchanges the first record with the one `offset` places after it. -/
def call (offset : Fin numberOfAprilTagLocations) (rxByte : Option UInt8) : Input where
  rxByte := rxByte
  randoms := ⟨fun tag => if tag = 0 then offset else 0, fun tag htag => by
    split_ifs with h
    · rw [h]
      exact offset.isLt
    · exact Nat.sub_pos_of_lt htag⟩
  seenTime := 0
  checkTime := 0
  actTime := 0

def packetBytes (id : UInt8) : List (Option UInt8) :=
  [some ((0xFC : UInt8) ||| id >>> 3), some (id <<< 5), some 0, some 0, some 0]

/-- The key `g`, a packet of each of the tags 1 to 5, and one of the robot's own. -/
def searchBytes : List (Option UInt8) := some 0x67 :: [1, 2, 3, 4, 5, 26].flatMap packetBytes

/-- A shuffle that leaves the records in their places. -/
theorem records_attached_still : ∃ s : Robot ℤ,
    (s.numberOfTagsFound, s.randomSamples) = (5, 2) ∧ s.Attached := by
  have hrun : (exec (jwsRunRobot .onAxis) Keeps (powerUp .onAxis)
      ((searchBytes ++ [none]).map (call 0))).map
      (fun s => (s.numberOfTagsFound, s.randomSamples)) = some (5, 2) := by decide +kernel
  obtain ⟨s, hr, hs⟩ := exists_run_of_exec hrun
  exact ⟨s, hs, (records_attached_iff hr).1⟩

/-- The first shuffle puts the record of the tag 2 in the place of the tag 1. -/
theorem not_attached_shuffled :
    ¬ ∀ s : Robot ℤ, Run (jwsRunRobot .onAxis) (fun _ _ => True) (powerUp .onAxis) s →
      s.Attached := by
  intro hall
  have hrun : (exec (jwsRunRobot .onAxis) (fun _ _ => True) (powerUp .onAxis)
      ((searchBytes ++ [none]).map (call 1))).map
      (fun s => (s.numberOfTagsFound, (s.locations 0).name, s.listOfTagsFound 0)) =
      some (5, 2 + offsetForName, 1) := by decide +kernel
  obtain ⟨s, hr, hs⟩ := exists_run_of_exec hrun
  have hnumber : s.numberOfTagsFound = 5 := congrArg Prod.fst hs
  have hname : (s.locations 0).name = 2 + offsetForName := congrArg (fun v => v.2.1) hs
  have htag : s.listOfTagsFound 0 = 1 := congrArg (fun v => v.2.2) hs
  have hkept := (hall s hr 0 (by rw [hnumber]; decide)).1
  rw [hname, htag] at hkept
  exact absurd hkept (by decide)

end Robot

end WixelSdk.JwsRobot
