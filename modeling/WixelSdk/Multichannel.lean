import WixelSdk.RadioComPending

/-!
# The multichannel sender

`main` of `wireless_serial_multichannel.c`. A batch of bytes from USB is sent on one channel after
the other: `usbToRadioService` passes it to the byte stream layer, waits until the TX queue is empty
and tunes the radio to the next live channel. A channel on which the queue does not get empty is
dropped, and a heartbeat brings a channel back from time to time.
-/

namespace WixelSdk.Multichannel
open RadioMac RadioLink RadioCom Transition

abbrev maxTxBytes : ℕ := 18

abbrev maxChannelChangeTries : UInt8 := 254

abbrev heartbeatTime : UInt32 := 500

abbrev lastChannelIndex : ℕ := 15

def bit (n : ℕ) : UInt16 := UInt16.ofNat (1 <<< n)

def channelList (i : ℕ) : UInt8 :=
  [0, 17, 34, 51, 68, 85, 102, 119, 136, 153, 170, 187, 204, 221, 238, 255].getD i 0

inductive SendingState
  | default
  | sending
  | changing
  deriving DecidableEq, Repr

/-- `while (radioComTxAvailable() && byteCounter < numTempBytes)`, with the bytes passed to
`radioComTxSendByte` and the channel of each. -/
def sendBytes : List UInt8 → Com → Com × List (UInt8 × UInt8)
  | [], c => (c, [])
  | byte :: bytes, c =>
    if c.interrupt.radioComTxAvailable ≠ 0 then
      ((sendBytes bytes (c.interrupt.interrupt.radioComTxSendByte byte)).1,
        (c.interrupt.interrupt.link.channr, byte) ::
          (sendBytes bytes (c.interrupt.interrupt.radioComTxSendByte byte)).2)
    else (c.interrupt, [])

/-- `while (radioComRxAvailable() && usbComTxAvailable())`, given what `usbComTxAvailable` says each
time. -/
def relay : List Bool → Com → Option Com
  | [], c => c.interrupt.radioComRxAvailable.toOption.map Prod.fst
  | room :: rooms, c =>
    c.interrupt.radioComRxAvailable.toOption.bind fun r =>
      if r.2 ≠ 0 ∧ room then relay rooms r.1.interrupt.radioComRxReceiveByte.1 else some r.1

/-- What happened since the last batch was read: the channel counter and the channel of the radio
then, the channels that were live ever since, and the bytes passed to `radioComTxSendByte`, each
with the channel of the radio. -/
structure Round where
  channelCounter : ℕ
  channr : UInt8
  states : UInt16
  passed : List (UInt8 × UInt8)

/-- `tempData` has the first `numTempBytes` bytes. The last two variables are not the program's:
`accepted` are the bytes passed to `radioComTxSendByte` since the radio was tuned. -/
structure Sender where
  com : Com
  sendingState : SendingState
  channelCounter : ℕ
  deadchannelCounter : UInt8
  channelStates : UInt16
  tempData : List UInt8
  rollover : Bool
  lastTime : UInt32
  channelChangeTries : UInt8
  round : Round
  accepted : List UInt8

/-- What an iteration of the main loop meets: interrupts, USB power, the time at each call of
`getMs`, the bytes that the USB host has sent, and the room for bytes to it. -/
structure Input where
  irqs : List (List Irq)
  usbPower : Bool
  checkTime : UInt32
  storeTime : UInt32
  usbRx : List UInt8
  usbTx : List Bool

namespace Sender

variable (s : Sender)

def interrupt : Sender := { s with com := s.com.interrupt }

def nextChannel : Sender :=
  if s.channelCounter + 1 > lastChannelIndex then { s with channelCounter := 0, rollover := true }
  else { s with channelCounter := s.channelCounter + 1 }

/-- The loop of `findNextChannel`; `none` if it still runs after `fuel` comparisons. -/
def skipDead : ℕ → Sender → Option Sender
  | 0, _ => none
  | fuel + 1, s =>
    if s.channelStates &&& bit s.channelCounter = 0 then skipDead fuel s.nextChannel else some s

def findNextChannel : Option Sender :=
  if s.channelStates = 0 then some { s with sendingState := .default }
  else s.nextChannel.skipDead (lastChannelIndex + 1)

def nextDead : Sender :=
  { s with
    deadchannelCounter :=
      if s.deadchannelCounter + 1 > 15 then 0 else s.deadchannelCounter + 1 }

/-- `!0x0` is 1, so that the loop goes on for channel 0 only. -/
def skipLive : ℕ → Sender → Option Sender
  | 0, _ => none
  | fuel + 1, s =>
    if s.channelStates &&& bit s.deadchannelCounter.toNat = 1 then skipLive fuel s.nextDead
    else some s

def revive : Sender :=
  { s with channelStates := s.channelStates ||| bit s.deadchannelCounter.toNat }

def heartbeat (inp : Input) : Option Sender :=
  if inp.checkTime - s.lastTime > heartbeatTime then
    if s.channelStates ≠ 0xFFFF then
      ({ s with lastTime := inp.storeTime }.nextDead.skipLive (lastChannelIndex + 1)).map revive
    else some { s with lastTime := inp.storeTime }
  else some s

def readBatch (inp : Input) : Sender :=
  if inp.usbRx = [] then s
  else
    { s with
      sendingState := .sending
      tempData := inp.usbRx.take maxTxBytes
      round := ⟨s.channelCounter, s.com.link.channr, s.channelStates, []⟩ }

def passBatch : Sender :=
  { s with
    com := (sendBytes s.tempData s.com).1
    round := { s.round with passed := s.round.passed ++ (sendBytes s.tempData s.com).2 }
    accepted := s.accepted ++ (sendBytes s.tempData s.com).2.map Prod.snd }

def sendBatch : Option Sender :=
  s.passBatch.findNextChannel.map fun t => { t with sendingState := .changing }

def radioLinkChangeChannel : Sender :=
  { s with
    com := s.com.radioLinkChangeChannel (channelList s.channelCounter)
    channelChangeTries := 0
    sendingState := if s.rollover then .default else .sending
    rollover := false
    accepted := [] }

/-- `channelCounter - 1` is -1 for channel 0. As the number of places of a shift that is 255, which
leaves no bit. -/
def dropChannel : Sender :=
  { s with
    channelStates := s.channelStates &&& ~~~bit ((s.channelCounter + 255) % 256)
    com := s.com.radioLinkTxQueueReset }

def countTry : Sender :=
  let s := { s with channelChangeTries := s.channelChangeTries + 1 }
  if s.channelChangeTries > maxChannelChangeTries then s.dropChannel else s

def changeChannel : Sender :=
  if s.interrupt.com.link.radioLinkTxQueued = 0 then s.interrupt.interrupt.radioLinkChangeChannel
  else s.interrupt.interrupt.countTry

def send (inp : Input) : Option Sender :=
  match s.sendingState with
  | .default => some (s.readBatch inp)
  | .sending => s.sendBatch
  | .changing => some s.changeChannel

def relayBytes (inp : Input) : Option Sender :=
  (relay inp.usbTx s.com).map fun c => { s with com := c }

def usbToRadioService (inp : Input) : Option Sender :=
  ((s.interrupt.heartbeat inp).bind fun t => t.send inp).bind fun t => t.relayBytes inp

def radioComTxService (inp : Input) : Sender :=
  { s with com := (s.com.schedule inp.irqs).radioComTxService }

/-- The channels that are not live now were not live ever since. -/
def observe : Sender :=
  { s with round := { s.round with states := s.round.states &&& s.channelStates } }

def step (inp : Input) : Option Sender :=
  if inp.usbPower then ((s.radioComTxService inp).usbToRadioService inp).map observe
  else some (s.radioComTxService inp).observe

/-- After `radioComInit`, in a program whose parameter `param_radio_channel` is given. -/
def init (param_radio_channel : UInt8) : Sender where
  com := (Com.powerUp false).radioComInit param_radio_channel
  sendingState := .default
  channelCounter := 0
  deadchannelCounter := 255
  channelStates := 0xFFFF
  tempData := []
  rollover := false
  lastTime := 0
  channelChangeTries := 0
  round := ⟨0, param_radio_channel, 0xFFFF, []⟩
  accepted := []

end Sender

/-! ### Live channels -/

def Live (states : UInt16) (i : ℕ) : Prop := states &&& bit i ≠ 0

instance (states : UInt16) (i : ℕ) : Decidable (Live states i) :=
  inferInstanceAs (Decidable (_ ≠ _))

variable {states states' : UInt16} {i k : ℕ}

theorem getLsbD_bit (hi : i ≤ lastChannelIndex) : (bit k).toBitVec.getLsbD i = decide (k = i) := by
  have hlt : i < 16 := Nat.lt_succ_of_le hi
  simp only [bit, UInt16.toBitVec_ofNat', BitVec.getLsbD_ofNat, Nat.one_shiftLeft,
    Nat.testBit_two_pow, hlt, decide_true, Bool.true_and]

theorem live_iff (hi : i ≤ lastChannelIndex) :
    Live states i ↔ states.toBitVec.getLsbD i = true := by
  constructor
  · intro h
    by_contra hbit
    refine h (UInt16.toBitVec_inj.mp (BitVec.eq_of_getLsbD_eq fun j hj => ?_))
    rw [UInt16.toBitVec_and, BitVec.getLsbD_and, getLsbD_bit (Nat.le_of_lt_succ hj)]
    by_cases hij : i = j
    · subst hij
      simpa using hbit
    · simp [hij]
  · intro h hzero
    have hbit := congrArg (fun x => x.toBitVec.getLsbD i) hzero
    simp only [UInt16.toBitVec_and, BitVec.getLsbD_and, getLsbD_bit hi, h] at hbit
    simp at hbit

theorem live_and (hi : i ≤ lastChannelIndex) :
    Live (states &&& states') i ↔ Live states i ∧ Live states' i := by
  rw [live_iff hi, live_iff hi, live_iff hi, UInt16.toBitVec_and, BitVec.getLsbD_and,
    Bool.and_eq_true]

theorem Live.or (hi : i ≤ lastChannelIndex) (h : Live states i) : Live (states ||| states') i := by
  rw [live_iff hi] at *
  rw [UInt16.toBitVec_or, BitVec.getLsbD_or, h, Bool.true_or]

theorem live_drop (hi : i ≤ lastChannelIndex) :
    Live (states &&& ~~~bit k) i ↔ Live states i ∧ k ≠ i := by
  have hlt : i < 16 := Nat.lt_succ_of_le hi
  rw [live_iff hi, live_iff hi, UInt16.toBitVec_and, UInt16.toBitVec_not, BitVec.getLsbD_and,
    BitVec.getLsbD_not, getLsbD_bit hi]
  simp [hlt]

theorem exists_live (h : states ≠ 0) : ∃ i, i ≤ lastChannelIndex ∧ Live states i := by
  by_contra hnone
  refine h (UInt16.toBitVec_inj.mp (BitVec.eq_of_getLsbD_eq fun i hi => ?_))
  have hdead : ¬ Live states i := fun hl => hnone ⟨i, Nat.le_of_lt_succ hi, hl⟩
  rw [live_iff (Nat.le_of_lt_succ hi)] at hdead
  simpa using hdead

theorem channelList_inj (hi : i ≤ lastChannelIndex) (hk : k ≤ lastChannelIndex)
    (h : channelList i = channelList k) : i = k := by
  have hall : ∀ i ≤ lastChannelIndex, ∀ k ≤ lastChannelIndex,
      channelList i = channelList k → i = k := by decide
  exact hall i hi k hk h

namespace Sender

variable {s t : Sender} {inp : Input} {param_radio_channel : UInt8}

/-! ### The rotation of the channels -/

/-- From channel `k` on, the counter skips dead channels only, and it says whether it has passed the
last channel. -/
structure SkipsFrom (s : Sender) (k : ℕ) (t : Sender) : Prop where
  eq : t = { s with channelCounter := t.channelCounter, rollover := t.rollover }
  counter : t.channelCounter ≤ lastChannelIndex
  dead : (t.rollover = s.rollover ∧ k ≤ t.channelCounter ∧
      ∀ i, k ≤ i → i < t.channelCounter → ¬ Live s.channelStates i) ∨
    (t.rollover = true ∧ ∀ i, k ≤ i → i ≤ lastChannelIndex → ¬ Live s.channelStates i)

theorem nextChannel_cases (hs : s.channelCounter ≤ lastChannelIndex) :
    (s.channelCounter = lastChannelIndex ∧
      s.nextChannel = { s with channelCounter := 0, rollover := true }) ∨
    (s.channelCounter < lastChannelIndex ∧
      s.nextChannel = { s with channelCounter := s.channelCounter + 1 }) := by
  unfold nextChannel
  split_ifs with hlast
  · exact Or.inl ⟨Nat.le_antisymm hs (Nat.le_of_lt_succ hlast), rfl⟩
  · exact Or.inr ⟨Nat.lt_of_succ_le (Nat.not_lt.mp hlast), rfl⟩

theorem SkipsFrom.nextChannel (hs : s.channelCounter ≤ lastChannelIndex)
    (h : SkipsFrom s.nextChannel s.nextChannel.channelCounter t) :
    SkipsFrom s (s.channelCounter + 1) t := by
  rcases nextChannel_cases hs with ⟨hlast, he⟩ | ⟨hlt, he⟩
  · rw [he] at h
    refine ⟨h.eq, h.counter, Or.inr ⟨?_, fun i hi hi' => ?_⟩⟩
    · exact h.dead.elim (fun hd => hd.1) fun hd => hd.1
    · omega
  · rw [he] at h
    exact ⟨h.eq, h.counter, h.dead⟩

theorem nextChannel_le (hs : s.channelCounter ≤ lastChannelIndex) :
    s.nextChannel.channelCounter ≤ lastChannelIndex := by
  rcases nextChannel_cases hs with ⟨-, he⟩ | ⟨hlt, he⟩
  · rw [he]
    exact Nat.zero_le _
  · rw [he]
    exact hlt

theorem SkipsFrom.cons (h : SkipsFrom s (k + 1) t) (hdead : ¬ Live s.channelStates k) :
    SkipsFrom s k t := by
  have hfrom : ∀ i, k ≤ i → (k + 1 ≤ i → ¬ Live s.channelStates i) → ¬ Live s.channelStates i := by
    intro i hi hlater
    rcases Nat.eq_or_lt_of_le hi with rfl | hlt
    · exact hdead
    · exact hlater hlt
  refine ⟨h.eq, h.counter, h.dead.imp ?_ ?_⟩
  · rintro ⟨hroll, hle, hbetween⟩
    exact ⟨hroll, Nat.le_of_succ_le hle, fun i hi hi' => hfrom i hi fun hlt => hbetween i hlt hi'⟩
  · rintro ⟨hroll, hbetween⟩
    exact ⟨hroll, fun i hi hi' => hfrom i hi fun hlt => hbetween i hlt hi'⟩

theorem skipDead_spec {fuel : ℕ} (hs : s.channelCounter ≤ lastChannelIndex)
    (ht : s.skipDead fuel = some t) : SkipsFrom s s.channelCounter t := by
  induction fuel generalizing s with
  | zero => cases ht
  | succ fuel ih =>
      rw [skipDead] at ht
      split_ifs at ht with hdead
      · exact ((ih (nextChannel_le hs) ht).nextChannel hs).cons (not_not.mpr hdead)
      · obtain rfl := Option.some.inj ht
        exact ⟨rfl, hs, Or.inl ⟨rfl, Nat.le_refl _, fun i hi hi' => absurd hi' (Nat.not_lt.mpr hi)⟩⟩

/-- The live channel `i` is reached after as many steps as it is ahead of the counter. -/
theorem skipDead_returns {fuel : ℕ} (hs : s.channelCounter ≤ lastChannelIndex)
    (hi : i ≤ lastChannelIndex) (hl : Live s.channelStates i)
    (hfuel : (i + 16 - s.channelCounter) % 16 < fuel) : ∃ t, s.skipDead fuel = some t := by
  induction fuel generalizing s with
  | zero => exact absurd hfuel (Nat.not_lt_zero _)
  | succ fuel ih =>
      rw [skipDead]
      split_ifs with hdead
      · have hne : s.channelCounter ≠ i := fun he => hl (he ▸ hdead)
        rcases nextChannel_cases hs with ⟨hlast, he⟩ | ⟨hlt, he⟩
        · rw [he]
          refine ih (Nat.zero_le _) hl ?_
          change (i + 16 - 0) % 16 < fuel
          simp only [lastChannelIndex] at *
          omega
        · rw [he]
          refine ih hlt hl ?_
          change (i + 16 - (s.channelCounter + 1)) % 16 < fuel
          simp only [lastChannelIndex] at *
          omega
      · exact ⟨s, rfl⟩

theorem findNextChannel_spec (hs : s.channelCounter ≤ lastChannelIndex)
    (hne : s.channelStates ≠ 0) (ht : s.findNextChannel = some t) :
    SkipsFrom s (s.channelCounter + 1) t := by
  rw [findNextChannel, if_neg hne] at ht
  exact (skipDead_spec (nextChannel_le hs) ht).nextChannel hs

theorem findNextChannel_returns (hs : s.channelCounter ≤ lastChannelIndex) :
    ∃ t, s.findNextChannel = some t := by
  unfold findNextChannel
  split_ifs with hzero
  · exact ⟨_, rfl⟩
  · obtain ⟨i, hi, hl⟩ := exists_live hzero
    have hsame : s.nextChannel.channelStates = s.channelStates := by
      rcases nextChannel_cases hs with ⟨-, he⟩ | ⟨-, he⟩ <;> rw [he]
    exact skipDead_returns (nextChannel_le hs) hi (hsame ▸ hl) (Nat.mod_lt _ (by decide))

/-! ### The heartbeat -/

/-- Channels may have come back. -/
structure Beats (s t : Sender) : Prop where
  eq : t = { s with
    lastTime := t.lastTime
    deadchannelCounter := t.deadchannelCounter
    channelStates := t.channelStates }
  live : ∀ i ≤ lastChannelIndex, Live s.channelStates i → Live t.channelStates i

theorem skipLive_spec {fuel : ℕ} (ht : s.skipLive fuel = some t) :
    t = { s with deadchannelCounter := t.deadchannelCounter } := by
  induction fuel generalizing s with
  | zero => cases ht
  | succ fuel ih =>
      rw [skipLive] at ht
      split_ifs at ht
      · have hrest := ih ht
        exact hrest
      · obtain rfl := Option.some.inj ht
        rfl

theorem bit_zero_of_and_eq_one {d : ℕ} (h : states &&& bit d = 1) : d = 0 := by
  have hbit := congrArg (fun x => x.toBitVec.getLsbD 0) h
  simp only [UInt16.toBitVec_and, BitVec.getLsbD_and, getLsbD_bit (Nat.zero_le _)] at hbit
  by_contra hd
  simp [hd] at hbit

/-- The loop skips channel 0 only, and channel 1 ends it. -/
theorem skipLive_returns (fuel : ℕ) : ∃ t, s.skipLive (fuel + 2) = some t := by
  rw [skipLive]
  split_ifs with hzero
  · have hd : s.deadchannelCounter = 0 := UInt8.toNat_inj.mp (bit_zero_of_and_eq_one hzero)
    have hone : s.nextDead.deadchannelCounter.toNat = 1 := by
      rw [nextDead, hd]
      rfl
    rw [skipLive, if_neg fun he => absurd (bit_zero_of_and_eq_one he) (by rw [hone]; decide)]
    exact ⟨_, rfl⟩
  · exact ⟨_, rfl⟩

theorem heartbeat_spec (ht : s.heartbeat inp = some t) : Beats s t := by
  unfold heartbeat at ht
  split_ifs at ht
  · obtain ⟨u, hu, rfl⟩ := Option.map_eq_some_iff.mp ht
    rw [skipLive_spec hu]
    exact ⟨rfl, fun i hi hl => hl.or hi⟩
  · obtain rfl := Option.some.inj ht
    exact ⟨rfl, fun _ _ hl => hl⟩
  · obtain rfl := Option.some.inj ht
    exact ⟨rfl, fun _ _ hl => hl⟩

theorem heartbeat_returns (s : Sender) (inp : Input) : ∃ t, s.heartbeat inp = some t := by
  unfold heartbeat
  split_ifs
  · obtain ⟨t, ht⟩ := skipLive_returns (s := { s with lastTime := inp.storeTime }.nextDead) 14
    exact ⟨t.revive, by rw [ht]; rfl⟩
  · exact ⟨_, rfl⟩
  · exact ⟨_, rfl⟩

end Sender

/-! ### What the byte stream layer does with a batch -/

/-- `radioComTxAvailable()` when nothing is queued and nothing loaded: 270 in eight bits. -/
def emptyRoom : ℕ := 14

section

variable {c d : Com} {channel : UInt8} {accepted : List UInt8}

def backlog (c : Com) : ℕ := c.link.radioLinkTxQueued + c.underConstruction

theorem backlog_eq_zero : backlog c = 0 ↔ c.link.radioLinkTxQueued = 0 ∧ c.txBytesLoaded = 0 := by
  unfold backlog Com.underConstruction
  split_ifs with hl
  · simp [hl]
  · simp [not_not.mp hl]

theorem backlog_le_of_still (h : Com.Still c d) : backlog d ≤ backlog c := by
  unfold backlog Com.underConstruction
  rw [h.txBytesLoaded]
  exact Nat.add_le_add_right h.link.queued _

theorem radioComTxAvailable_of_empty (hsoon : c.sendSignalsSoon = false)
    (hq : c.link.radioLinkTxQueued = 0) (hk : c.txBytesLoaded.toNat = k) (hle : k ≤ emptyRoom) :
    c.radioComTxAvailable.toNat = emptyRoom - k := by
  have hsum := c.link.radioLinkTxAvailable_add_queued
  have havail : c.link.radioLinkTxAvailable = 15 := by omega
  rw [Com.toNat_radioComTxAvailable hsoon, havail, hk]
  simp only [payloadSize, emptyRoom] at *
  omega

theorem sendBytes_spec (bytes : List UInt8) (h : Com.Calm channel accepted c)
    (hq : c.link.radioLinkTxQueued = 0) (hk : c.txBytesLoaded.toNat = k) (hle : k ≤ emptyRoom) :
    Com.Calm channel (accepted ++ bytes.take (emptyRoom - k)) (sendBytes bytes c).1 ∧
      (sendBytes bytes c).1.link.radioLinkTxQueued = 0 ∧
      (sendBytes bytes c).2 = (bytes.take (emptyRoom - k)).map (fun byte => (channel, byte)) ∧
      (c.link.Confined accepted →
        (sendBytes bytes c).1.link.Confined (accepted ++ bytes.take (emptyRoom - k))) := by
  induction bytes generalizing c accepted k with
  | nil => simpa [sendBytes] using ⟨h, hq⟩
  | cons byte bytes ih =>
      have hi := h.interrupt
      have hiq : c.interrupt.link.radioLinkTxQueued = 0 :=
        Nat.eq_zero_of_le_zero (hq ▸ (Com.still_interrupt h.pending.serviceable).link.queued)
      have hroom := radioComTxAvailable_of_empty hi.quiet hiq hk hle
      rw [sendBytes]
      split_ifs with hstop
      · have hlt : k < emptyRoom := by
          by_contra hge
          rw [Nat.sub_eq_zero_of_le (Nat.not_lt.mp hge)] at hroom
          exact hstop (UInt8.toNat_inj.mp hroom)
        have hii := hi.interrupt
        have hiiq : c.interrupt.interrupt.link.radioLinkTxQueued = 0 :=
          Nat.eq_zero_of_le_zero (hiq ▸ (Com.still_interrupt hi.pending.serviceable).link.queued)
        have hfree : c.interrupt.interrupt.txBytesLoaded ≠ 0 ∨
            c.interrupt.interrupt.link.radioLinkTxQueued < 15 :=
          Or.inr (by rw [hiiq]; decide)
        have hsent := hii.radioComTxSendByte hfree byte
        have hcases := (Com.radioComTxSendByte_cases hii.building hfree byte).2.2
        have hloaded : c.interrupt.interrupt.txBytesLoaded.toNat = k := hk
        rcases hcases with ⟨hl, -, -, -, hqueued⟩ | ⟨hfull, -⟩
        · rw [hloaded] at hl
          rw [hiiq] at hqueued
          obtain ⟨hcalm, hempty, hpassed, hconfined⟩ :=
            ih hsent (Nat.eq_zero_of_le_zero hqueued) hl hlt
          have htake : (byte :: bytes).take (emptyRoom - k) =
              byte :: bytes.take (emptyRoom - (k + 1)) := by
            rw [show emptyRoom - k = emptyRoom - (k + 1) + 1 by omega, List.take_succ_cons]
          rw [htake, List.map_cons, hpassed, hii.pending.tuned]
          rw [List.append_assoc] at hcalm hconfined
          refine ⟨hcalm, hempty, rfl, fun ha => hconfined ?_⟩
          exact hii.pending.confined_radioComTxSendByte hii.building hfree byte
            (hi.pending.confined_interrupt (h.pending.confined_interrupt ha))
        · simp only [payloadSize, emptyRoom] at *
          omega
      · have hzero : emptyRoom - k = 0 := by
          rw [← hroom, not_not.mp hstop]
          rfl
        rw [hzero, List.take_zero, List.append_nil]
        exact ⟨hi, hiq, rfl, fun ha => h.pending.confined_interrupt ha⟩

theorem radioComRxAvailable_preserves {I : Com → Prop} (hI : Com.RxParts I) {r : Com × UInt8}
    (h : I c) (hr : c.radioComRxAvailable.toOption = some r) : I r.1 := by
  unfold Com.radioComRxAvailable at hr
  cases hd : c.receiveMorePackets with
  | error d =>
      rw [hd] at hr
      cases hr
  | ok d =>
      rw [hd] at hr
      obtain rfl := Option.some.inj hr
      exact hI.rxRule.receiveMorePackets h hd

theorem relay_preserves {I : Com → Prop} (hI : Com.RxParts I) {rooms : List Bool} (h : I c)
    (hd : relay rooms c = some d) : I d := by
  induction rooms generalizing c with
  | nil =>
      obtain ⟨r, hr, rfl⟩ := Option.map_eq_some_iff.mp hd
      exact radioComRxAvailable_preserves hI (hI.interrupt _ h) hr
  | cons room rooms ih =>
      obtain ⟨r, hr, hd⟩ := Option.bind_eq_some_iff.mp hd
      have hnext := radioComRxAvailable_preserves hI (hI.interrupt _ h) hr
      split_ifs at hd
      · exact ih (hI.radioComRxReceiveByte (hI.interrupt _ hnext)) hd
      · obtain rfl := Option.some.inj hd
        exact hnext

end

/-! ### The bytes passed on a channel -/

namespace Round

variable (r : Round)

def passedOn (channel : UInt8) : List UInt8 :=
  (r.passed.filter fun p => p.1 = channel).map Prod.snd

/-- How often the batch goes to channel `i` before channel `k` has its turn: once where the radio
was tuned when the batch was read, and once in the turn of the channel. -/
def copies (k i : ℕ) : ℕ :=
  (if r.channr = channelList i then 1 else 0) + if r.channelCounter < i ∧ i < k then 1 else 0

/-- What the byte stream layer takes of the batch was passed that often to each live channel. -/
def Progress (batch : List UInt8) (k : ℕ) : Prop :=
  ∀ i ≤ lastChannelIndex, Live r.states i →
    r.passedOn (channelList i) = (List.replicate (r.copies k i) (batch.take emptyRoom)).flatten

variable {r}

theorem Progress.skip {batch : List UInt8} {l : ℕ} (h : r.Progress batch k)
    (hl : ∀ i ≤ lastChannelIndex, Live r.states i → (i < k ↔ i < l)) : r.Progress batch l := by
  intro i hi hlive
  rw [h i hi hlive]
  simp only [copies, hl i hi hlive]

theorem passedOn_append (r : Round) (channr channel : UInt8) (bytes : List UInt8) :
    { r with passed := r.passed ++ bytes.map fun byte => (channr, byte) }.passedOn channel =
      r.passedOn channel ++ if channr = channel then bytes else [] := by
  have hmap : (bytes.map fun byte => (channr, byte)).filter (fun p => p.1 = channel) =
      if channr = channel then bytes.map fun byte => (channr, byte) else [] := by
    split_ifs with he
    · exact List.filter_eq_self.mpr fun p hp => by
        obtain ⟨byte, -, rfl⟩ := List.mem_map.mp hp
        exact decide_eq_true he
    · exact List.filter_eq_nil_iff.mpr fun p hp => by
        obtain ⟨byte, -, rfl⟩ := List.mem_map.mp hp
        simpa using he
  unfold passedOn
  rw [List.filter_append, hmap, List.map_append]
  congr 1
  split_ifs
  · rw [List.map_map]
    exact List.map_id _
  · rfl

theorem progress_first {batch : List UInt8} (hempty : r.passed = []) :
    { r with
      passed := r.passed ++ (batch.take emptyRoom).map fun byte => (r.channr, byte) }.Progress
      batch (r.channelCounter + 1) := by
  intro i hi hlive
  have hnone : r.passedOn (channelList i) = [] := by
    unfold passedOn
    rw [hempty]
    rfl
  have hbefore : ¬ (r.channelCounter < i ∧ i < r.channelCounter + 1) := by omega
  rw [passedOn_append, hnone, copies, if_neg hbefore]
  split_ifs
  · exact (List.append_nil _).symm
  · rfl

theorem Progress.turn {batch : List UInt8} (h : r.Progress batch k) (hk : k ≤ lastChannelIndex)
    (hlt : r.channelCounter < k) :
    { r with
      passed := r.passed ++ (batch.take emptyRoom).map fun byte => (channelList k, byte) }.Progress
      batch (k + 1) := by
  intro i hi hlive
  have hturn : copies { r with
      passed := r.passed ++ (batch.take emptyRoom).map fun byte => (channelList k, byte) }
      (k + 1) i = r.copies k i + if channelList k = channelList i then 1 else 0 := by
    unfold copies
    by_cases hik : k = i
    · subst hik
      simp [hlt]
    · have hne : channelList k ≠ channelList i := fun he => hik (channelList_inj hk hi he)
      have hsame : r.channelCounter < i ∧ i < k + 1 ↔ r.channelCounter < i ∧ i < k := by omega
      simp only [if_neg hne, hsame, Nat.add_zero]
  rw [passedOn_append, h i hi hlive, hturn]
  split_ifs
  · rw [List.replicate_succ', List.flatten_append, List.flatten_singleton]
  · rw [List.append_nil, Nat.add_zero]

end Round

/-! ### What an iteration preserves -/

namespace Sender

variable {s t : Sender} {inp : Input} {param_radio_channel : UInt8}

/-- The batch is about to be passed: for the first time, or in the turn of the radio's channel. -/
def Ready (s : Sender) : Prop :=
  (s.round.channelCounter = s.channelCounter ∧ s.round.channr = s.com.link.channr ∧
    s.round.passed = []) ∨
  (s.round.channelCounter < s.channelCounter ∧ s.com.link.channr = channelList s.channelCounter ∧
    s.round.Progress s.tempData s.channelCounter)

/-- The batch has been passed to all channels before that of the counter. -/
def Passed (s : Sender) : Prop :=
  (s.rollover = false ∧ s.round.channelCounter < s.channelCounter ∧
    s.round.Progress s.tempData s.channelCounter) ∨
  (s.rollover = true ∧ s.round.Progress s.tempData (lastChannelIndex + 1))

def Phase (s : Sender) : Prop :=
  match s.sendingState with
  | .default =>
    s.rollover = false ∧ (s.tempData ≠ [] → s.round.Progress s.tempData (lastChannelIndex + 1))
  | .sending => s.rollover = false ∧ s.tempData ≠ [] ∧ s.Ready
  | .changing => s.tempData ≠ [] ∧ s.Passed

structure Steady (s : Sender) : Prop where
  calm : Com.Calm s.com.link.channr s.accepted s.com
  backlog : backlog s.com ≤ if s.sendingState = .changing then 1 else 0
  counter : s.channelCounter ≤ lastChannelIndex
  last : Live s.channelStates lastChannelIndex ∧ Live s.round.states lastChannelIndex
  length : s.tempData.length ≤ maxTxBytes
  phase : s.Phase

/-- A channel that was live ever since the batch was read is live now. -/
def Kept (s : Sender) : Prop :=
  ∀ i ≤ lastChannelIndex, Live s.round.states i → Live s.channelStates i

theorem phase_com {c : Com} (hc : c.link.channr = s.com.link.channr) :
    { s with com := c }.Phase ↔ s.Phase := by
  simp only [Phase, Ready, Passed, hc]

theorem Steady.withCom {c : Com} (h : Steady s) (hc : Com.Calm s.com.link.channr s.accepted c)
    (hb : Multichannel.backlog c ≤ Multichannel.backlog s.com) : Steady { s with com := c } where
  calm := by
    change Com.Calm c.link.channr s.accepted c
    rw [hc.pending.tuned]
    exact hc
  backlog := Nat.le_trans hb h.backlog
  counter := h.counter
  last := h.last
  length := h.length
  phase := (phase_com hc.pending.tuned).mpr h.phase

theorem Steady.interrupt (h : Steady s) : Steady s.interrupt :=
  h.withCom h.calm.interrupt
    (backlog_le_of_still (Com.still_interrupt h.calm.pending.serviceable))

theorem Steady.backlog_le_one (h : Steady s) : Multichannel.backlog s.com ≤ 1 := by
  have hb := h.backlog
  split_ifs at hb
  · exact hb
  · exact Nat.le_succ_of_le hb

/-- No byte is loaded after `radioComTxService`. -/
theorem Steady.radioComTxService (h : Steady s)
    (hquiet : (s.com.schedule inp.irqs).noticeReset.sendSignalsSoon = false) :
    Steady (s.radioComTxService inp) ∧ (s.radioComTxService inp).com.txBytesLoaded = 0 := by
  have hsched := h.calm.schedule inp.irqs
  obtain ⟨hloaded, hqueued⟩ := hsched.radioComTxService_flushes hquiet h.backlog_le_one
  refine ⟨h.withCom (hsched.radioComTxService hquiet) ?_, hloaded⟩
  rw [Multichannel.backlog, Com.underConstruction, if_neg (not_not.mpr hloaded)]
  exact hqueued

theorem Steady.beats (h : Steady s) (hb : Beats s t) : Steady t := by
  obtain ⟨time, dead, states, rfl⟩ : ∃ time dead states, t = { s with
      lastTime := time, deadchannelCounter := dead, channelStates := states } := ⟨_, _, _, hb.eq⟩
  exact ⟨h.calm, h.backlog, h.counter, ⟨hb.live _ (Nat.le_refl _) h.last.1, h.last.2⟩, h.length,
    h.phase⟩

theorem Kept.beats (h : Kept s) (hb : Beats s t) : Kept t := by
  obtain ⟨time, dead, states, rfl⟩ : ∃ time dead states, t = { s with
      lastTime := time, deadchannelCounter := dead, channelStates := states } := ⟨_, _, _, hb.eq⟩
  exact fun i hi hl => hb.live i hi (h i hi hl)

theorem Steady.readBatch (h : Steady s) (hst : s.sendingState = .default) :
    Steady (s.readBatch inp) := by
  have hphase := h.phase
  have hbacklog := h.backlog
  rw [Phase, hst] at hphase
  rw [hst] at hbacklog
  unfold Sender.readBatch
  split_ifs with hrx
  · exact h
  · refine ⟨h.calm, hbacklog, h.counter, ⟨h.last.1, h.last.1⟩, List.length_take_le _ _,
      hphase.1, ?_, Or.inl ⟨rfl, rfl, rfl⟩⟩
    change inp.usbRx.take maxTxBytes ≠ []
    simpa using hrx

theorem Steady.passBatch (h : Steady s) (hst : s.sendingState = .sending) :
    Com.Calm s.passBatch.com.link.channr s.passBatch.accepted s.passBatch.com ∧
      Multichannel.backlog s.passBatch.com ≤ 1 ∧
      s.passBatch.round.Progress s.tempData (s.channelCounter + 1) := by
  have hphase := h.phase
  have hbacklog := h.backlog
  rw [Phase, hst] at hphase
  rw [hst] at hbacklog
  obtain ⟨-, -, hready⟩ := hphase
  obtain ⟨hqueued, hloaded⟩ := backlog_eq_zero.mp (Nat.eq_zero_of_le_zero hbacklog)
  obtain ⟨hcalm, hempty, hpassed, -⟩ := sendBytes_spec s.tempData h.calm hqueued
    (congrArg UInt8.toNat hloaded) (Nat.zero_le _)
  refine ⟨?_, ?_, ?_⟩
  · change Com.Calm (sendBytes s.tempData s.com).1.link.channr
      (s.accepted ++ (sendBytes s.tempData s.com).2.map Prod.snd) _
    rw [hcalm.pending.tuned, hpassed, List.map_map]
    exact (List.map_id (s.tempData.take emptyRoom)).symm ▸ hcalm
  · change Multichannel.backlog (sendBytes s.tempData s.com).1 ≤ 1
    rw [Multichannel.backlog, hempty, Nat.zero_add, Com.underConstruction]
    split_ifs <;> decide
  · rw [Sender.passBatch, hpassed]
    rcases hready with ⟨hfirst, hchannr, hnone⟩ | ⟨hlt, hchannr, hp⟩
    · rw [← hfirst, ← hchannr]
      exact Round.progress_first hnone
    · rw [hchannr]
      exact hp.turn h.counter hlt

/-- The channels that the counter skips were not live ever since. -/
theorem SkipsFrom.passed (h : SkipsFrom s (s.channelCounter + 1) t) (hk : Kept s)
    (hroll : s.rollover = false) (hstart : s.round.channelCounter ≤ s.channelCounter)
    (hp : s.round.Progress s.tempData (s.channelCounter + 1)) : t.Passed := by
  obtain ⟨k, b, rfl⟩ : ∃ k b, t = { s with channelCounter := k, rollover := b } :=
    ⟨_, _, h.eq⟩
  refine h.dead.imp ?_ ?_
  · rintro ⟨hsame, hle, hdead⟩
    refine ⟨hsame.trans hroll, Nat.lt_of_le_of_lt hstart hle, hp.skip fun i hi hl => ?_⟩
    refine ⟨fun hlt => Nat.lt_of_lt_of_le hlt hle, fun hlt => ?_⟩
    by_contra hge
    exact hdead i (Nat.not_lt.mp hge) hlt (hk i hi hl)
  · rintro ⟨hwrap, hdead⟩
    refine ⟨hwrap, hp.skip fun i hi hl => ⟨fun _ => Nat.lt_succ_of_le hi, fun _ => ?_⟩⟩
    by_contra hge
    exact hdead i (Nat.not_lt.mp hge) hi (hk i hi hl)

/-- The batch is passed, and the counter goes to the next live channel. -/
theorem Steady.sendBatch (h : Steady s) (hk : Kept s) (hst : s.sendingState = .sending)
    (ht : s.sendBatch = some t) : Steady t := by
  have hphase := h.phase
  rw [Phase, hst] at hphase
  obtain ⟨hroll, hne, hready⟩ := hphase
  obtain ⟨hcalm, hbacklog, hprogress⟩ := h.passBatch hst
  have hstart : s.round.channelCounter ≤ s.channelCounter :=
    hready.elim (fun hr => Nat.le_of_eq hr.1) fun hr => Nat.le_of_lt hr.1
  have hstates : s.channelStates ≠ 0 := by
    rintro he
    exact h.last.1 (by rw [he, UInt16.zero_and])
  obtain ⟨u, hu, rfl⟩ := Option.map_eq_some_iff.mp ht
  have hskip := findNextChannel_spec (s := s.passBatch) h.counter hstates hu
  have hkept : Kept s.passBatch := hk
  have hpassed := hskip.passed hkept hroll hstart hprogress
  obtain ⟨k, b, rfl⟩ : ∃ k b, u = { s.passBatch with channelCounter := k, rollover := b } :=
    ⟨_, _, hskip.eq⟩
  exact ⟨hcalm, hbacklog, hskip.counter, h.last, h.length, hne, hpassed⟩

theorem Steady.radioLinkChangeChannel (h : Steady s) (hst : s.sendingState = .changing)
    (hqueued : s.com.link.radioLinkTxQueued = 0) (hloaded : s.com.txBytesLoaded = 0) :
    Steady s.radioLinkChangeChannel := by
  have hphase := h.phase
  rw [Phase, hst] at hphase
  obtain ⟨hne, hpassed⟩ := hphase
  have hcalm := h.calm.radioLinkChangeChannel hloaded (channelList s.channelCounter)
  have hbacklog : Multichannel.backlog
      (s.com.radioLinkChangeChannel (channelList s.channelCounter)) = 0 := by
    have hle := backlog_le_of_still (Com.still_radioLinkChangeChannel h.calm.pending.serviceable
      (channelList s.channelCounter))
    rw [backlog_eq_zero.mpr ⟨hqueued, hloaded⟩] at hle
    exact Nat.eq_zero_of_le_zero hle
  refine ⟨hcalm, Nat.le_trans (Nat.le_of_eq hbacklog) (Nat.zero_le _), h.counter, h.last, h.length,
    ?_⟩
  rcases hpassed with ⟨hroll, hlt, hprogress⟩ | ⟨hroll, hprogress⟩
  · have hnext : s.radioLinkChangeChannel.sendingState = .sending := by
      rw [Sender.radioLinkChangeChannel, hroll]
      rfl
    rw [Phase, hnext]
    exact ⟨rfl, hne, Or.inr ⟨hlt, rfl, hprogress⟩⟩
  · have hnext : s.radioLinkChangeChannel.sendingState = .default := by
      rw [Sender.radioLinkChangeChannel, hroll]
      rfl
    rw [Phase, hnext]
    exact ⟨rfl, fun _ => hprogress⟩

/-- The last channel is never dropped: the counter is never ahead of it. -/
theorem Steady.dropChannel (h : Steady s) (hloaded : s.com.txBytesLoaded = 0) :
    Steady s.dropChannel := by
  have hcalm := h.calm.radioLinkTxQueueReset
  have hzero : Multichannel.backlog s.com.radioLinkTxQueueReset = 0 :=
    backlog_eq_zero.mpr ⟨s.com.radioLinkTxQueued_radioLinkTxQueueReset, hloaded⟩
  have hcounter := h.counter
  refine ⟨hcalm, Nat.le_trans (Nat.le_of_eq hzero) (Nat.zero_le _), h.counter,
    ⟨(live_drop (Nat.le_refl _)).mpr ⟨h.last.1, ?_⟩, h.last.2⟩, h.length, h.phase⟩
  simp only [lastChannelIndex] at *
  omega

theorem Steady.countTry (h : Steady s) (hloaded : s.com.txBytesLoaded = 0) : Steady s.countTry := by
  have hcount : Steady { s with channelChangeTries := s.channelChangeTries + 1 } :=
    ⟨h.calm, h.backlog, h.counter, h.last, h.length, h.phase⟩
  unfold Sender.countTry
  simp only
  split_ifs
  · exact hcount.dropChannel hloaded
  · exact hcount

theorem Steady.changeChannel (h : Steady s) (hst : s.sendingState = .changing)
    (hloaded : s.com.txBytesLoaded = 0) : Steady s.changeChannel := by
  have hi := h.interrupt.interrupt
  unfold Sender.changeChannel
  split_ifs with hqueued
  · refine hi.radioLinkChangeChannel hst (Nat.eq_zero_of_le_zero ?_) hloaded
    rw [← hqueued]
    exact (Com.still_interrupt h.interrupt.calm.pending.serviceable).link.queued
  · exact hi.countTry hloaded

theorem Steady.relayBytes (h : Steady s) (ht : s.relayBytes inp = some t) : Steady t := by
  obtain ⟨c, hc, rfl⟩ := Option.map_eq_some_iff.mp ht
  refine h.withCom (relay_preserves (Com.rxParts_calm _ _) h.calm hc) (backlog_le_of_still ?_)
  exact relay_preserves (Com.rxParts_still s.com) (.refl h.calm.pending.serviceable) hc

theorem Steady.send (h : Steady s) (hk : Kept s) (hloaded : s.com.txBytesLoaded = 0)
    (ht : s.send inp = some t) : Steady t := by
  unfold Sender.send at ht
  split at ht
  · rename_i hst
    obtain rfl := Option.some.inj ht
    exact h.readBatch hst
  · rename_i hst
    exact h.sendBatch hk hst ht
  · rename_i hst
    obtain rfl := Option.some.inj ht
    exact h.changeChannel hst hloaded

/-- What was seen of fewer channels. -/
theorem Steady.observe (h : Steady s) : Steady s.observe ∧ Kept s.observe := by
  have hfewer : ∀ i, i ≤ lastChannelIndex → Live s.observe.round.states i →
      Live s.round.states i ∧ Live s.channelStates i := fun i hi hl => (live_and hi).mp hl
  have hprogress : ∀ batch k, s.round.Progress batch k → s.observe.round.Progress batch k :=
    fun _ _ hp i hi hl => hp i hi (hfewer i hi hl).1
  refine ⟨⟨h.calm, h.backlog, h.counter,
    ⟨h.last.1, (live_and (Nat.le_refl _)).mpr ⟨h.last.2, h.last.1⟩⟩, h.length, ?_⟩,
    fun i hi hl => (hfewer i hi hl).2⟩
  have hphase := h.phase
  have hsame : s.observe.sendingState = s.sendingState := rfl
  unfold Phase at hphase ⊢
  rw [hsame]
  cases hst : s.sendingState with
  | default =>
      rw [hst] at hphase
      exact ⟨hphase.1, fun hne => hprogress _ _ (hphase.2 hne)⟩
  | sending =>
      rw [hst] at hphase
      exact ⟨hphase.1, hphase.2.1, hphase.2.2.imp id
        fun hr => ⟨hr.1, hr.2.1, hprogress _ _ hr.2.2⟩⟩
  | changing =>
      rw [hst] at hphase
      exact ⟨hphase.1, hphase.2.imp (fun hp => ⟨hp.1, hp.2.1, hprogress _ _ hp.2.2⟩)
        fun hp => ⟨hp.1, hprogress _ _ hp.2⟩⟩

/-- `radioComTxService` finds no reset packet. -/
def Quiet (s : Sender) (inp : Input) : Prop :=
  (s.com.schedule inp.irqs).noticeReset.sendSignalsSoon = false

instance (s : Sender) (inp : Input) : Decidable (s.Quiet inp) :=
  inferInstanceAs (Decidable (_ = false))

theorem Steady.step (h : Steady s) (hk : Kept s) (hquiet : s.Quiet inp)
    (ht : s.step inp = some t) : Steady t ∧ Kept t := by
  obtain ⟨hservice, hloaded⟩ := h.radioComTxService hquiet
  have hkept : Kept (s.radioComTxService inp) := hk
  unfold Sender.step at ht
  split_ifs at ht
  · obtain ⟨v, hv, rfl⟩ := Option.map_eq_some_iff.mp ht
    obtain ⟨u, hu, hv⟩ := Option.bind_eq_some_iff.mp hv
    obtain ⟨w, hw, hu⟩ := Option.bind_eq_some_iff.mp hu
    have hbeats := heartbeat_spec hw
    have hsame : w.com.txBytesLoaded = 0 := by
      rw [hbeats.eq]
      exact hloaded
    have hkept' : Kept (s.radioComTxService inp).interrupt := hkept
    have hsend := (hservice.interrupt.beats hbeats).send (hkept'.beats hbeats) hsame hu
    exact (hsend.relayBytes hv).observe
  · obtain rfl := Option.some.inj ht
    exact hservice.observe

theorem steady_init (param_radio_channel : UInt8) :
    Steady (init param_radio_channel) ∧ Kept (init param_radio_channel) := by
  have hlast : Live 0xFFFF lastChannelIndex := by decide
  refine ⟨⟨⟨Com.building_init false param_radio_channel, ⟨?_, rfl, ?_, ?_⟩, rfl⟩, Nat.zero_le _,
    Nat.zero_le _, ⟨hlast, hlast⟩, Nat.zero_le _, rfl, fun hne => absurd rfl hne⟩,
    fun _ _ hl => hl⟩
  · exact Node.serviceable_radioLinkInit param_radio_channel
  · intro p hp
    cases hp
  · exact List.suffix_rfl

theorem steady_of_run (hr : Run step Quiet (init param_radio_channel) s) : Steady s ∧ Kept s :=
  Run.invariant (I := fun s => Steady s ∧ Kept s) hr (steady_init param_radio_channel)
    fun _ _ _ hi hquiet ht => hi.1.step hi.2 hquiet ht

/-- The loops of `usbToRadioService` end, up to the one that relays bytes to USB. -/
theorem send_returns (hr : Run step Quiet (init param_radio_channel) s) (inp : Input) :
    ∃ t, (((s.radioComTxService inp).interrupt.heartbeat inp).bind fun u => u.send inp) =
      some t := by
  obtain ⟨u, hu⟩ := heartbeat_returns (s.radioComTxService inp).interrupt inp
  have hcounter : u.channelCounter ≤ lastChannelIndex := by
    rw [(heartbeat_spec hu).eq]
    exact (steady_of_run hr).1.counter
  rw [hu, Option.bind_some, send]
  cases u.sendingState with
  | default => exact ⟨_, rfl⟩
  | sending =>
      obtain ⟨t, ht⟩ := findNextChannel_returns (s := u.passBatch) hcounter
      exact ⟨{ t with sendingState := .changing }, by rw [sendBatch, ht]; rfl⟩
  | changing => exact ⟨_, rfl⟩

/-! ### The frame in transmission -/

/-- The state in which the iteration tunes the radio, if it does. -/
def tunedFrom (s : Sender) (inp : Input) : Option Sender :=
  if inp.usbPower then
    ((s.radioComTxService inp).interrupt.heartbeat inp).bind fun u =>
      if u.sendingState = .changing ∧ u.interrupt.com.link.radioLinkTxQueued = 0 then
        some u.interrupt.interrupt
      else none
  else none

/-- No data is in transmission when the radio is tuned. -/
def Clear (s : Sender) (inp : Input) : Prop := ∀ u ∈ s.tunedFrom inp, u.com.link.Confined []

instance (s : Sender) (inp : Input) : Decidable (s.Clear inp) :=
  inferInstanceAs (Decidable (∀ u ∈ s.tunedFrom inp, _))

variable {u : Sender}

theorem tunedFrom_eq_some (hu : s.tunedFrom inp = some u) : ∃ w, inp.usbPower = true ∧
    (s.radioComTxService inp).interrupt.heartbeat inp = some w ∧ w.sendingState = .changing ∧
    w.interrupt.com.link.radioLinkTxQueued = 0 ∧ u = w.interrupt.interrupt := by
  unfold tunedFrom at hu
  split_ifs at hu with hpower
  obtain ⟨w, hw, hu⟩ := Option.bind_eq_some_iff.mp hu
  split_ifs at hu with hc
  exact ⟨w, hpower, hw, hc.1, hc.2, (Option.some.inj hu).symm⟩

/-- What the iteration does with that state. -/
theorem step_of_tunedFrom (hu : s.tunedFrom inp = some u) :
    s.step inp = (u.radioLinkChangeChannel.relayBytes inp).map observe := by
  obtain ⟨w, hpower, hw, hst, hqueued, rfl⟩ := tunedFrom_eq_some hu
  have hsend : w.send inp = some w.interrupt.interrupt.radioLinkChangeChannel := by
    rw [send, hst, changeChannel, if_pos hqueued]
  rw [step, if_pos hpower, usbToRadioService, hw, Option.bind_some, hsend, Option.bind_some]

theorem Steady.tunedFrom (h : Steady s) (hquiet : s.Quiet inp) (hu : s.tunedFrom inp = some u) :
    Steady u.radioLinkChangeChannel := by
  obtain ⟨hservice, hloaded⟩ := h.radioComTxService hquiet
  obtain ⟨w, -, hw, hst, hqueued, rfl⟩ := tunedFrom_eq_some hu
  have hbeats := heartbeat_spec hw
  have hsteady := hservice.interrupt.beats hbeats
  have hsame : w.com.txBytesLoaded = 0 := by
    rw [hbeats.eq]
    exact hloaded
  refine hsteady.interrupt.interrupt.radioLinkChangeChannel hst (Nat.eq_zero_of_le_zero ?_) hsame
  rw [← hqueued]
  exact (Com.still_interrupt hsteady.interrupt.calm.pending.serviceable).link.queued

theorem Steady.confined_interrupt (h : Steady s) (ha : s.com.link.Confined s.accepted) :
    s.interrupt.com.link.Confined s.accepted := h.calm.pending.confined_interrupt ha

theorem Steady.confined_sendBatch (h : Steady s) (hst : s.sendingState = .sending)
    (ht : s.sendBatch = some t) (ha : s.com.link.Confined s.accepted) :
    t.com.link.Confined t.accepted := by
  have hbacklog := h.backlog
  rw [hst] at hbacklog
  obtain ⟨hqueued, hloaded⟩ := backlog_eq_zero.mp (Nat.eq_zero_of_le_zero hbacklog)
  obtain ⟨-, -, hpassed, hconfined⟩ := sendBytes_spec s.tempData h.calm hqueued
    (congrArg UInt8.toNat hloaded) (Nat.zero_le _)
  have hstates : s.channelStates ≠ 0 := by
    intro he
    exact h.last.1 (by rw [he, UInt16.zero_and])
  obtain ⟨u, hu, rfl⟩ := Option.map_eq_some_iff.mp ht
  rw [(findNextChannel_spec (s := s.passBatch) h.counter hstates hu).eq]
  change (sendBytes s.tempData s.com).1.link.Confined
    (s.accepted ++ (sendBytes s.tempData s.com).2.map Prod.snd)
  have hmap : (sendBytes s.tempData s.com).2.map Prod.snd = s.tempData.take (emptyRoom - 0) := by
    rw [hpassed, List.map_map]
    exact List.map_id _
  rw [hmap]
  exact hconfined ha

theorem Steady.confined_send (h : Steady s) (ht : s.send inp = some t)
    (ha : s.com.link.Confined s.accepted)
    (hclear : s.sendingState = .changing → s.interrupt.com.link.radioLinkTxQueued = 0 →
      s.interrupt.interrupt.com.link.Confined []) : t.com.link.Confined t.accepted := by
  unfold Sender.send at ht
  split at ht
  · obtain rfl := Option.some.inj ht
    unfold Sender.readBatch
    split_ifs
    · exact ha
    · exact ha
  · rename_i hst
    exact h.confined_sendBatch hst ht ha
  · rename_i hst
    obtain rfl := Option.some.inj ht
    have hair := h.interrupt.confined_interrupt (h.confined_interrupt ha)
    unfold Sender.changeChannel
    split_ifs with hqueued
    · exact hclear hst hqueued
    · unfold Sender.countTry
      dsimp only
      split_ifs
      · exact hair
      · exact hair

theorem Steady.confined_step (h : Steady s) (hk : Kept s) (hquiet : s.Quiet inp)
    (hclear : s.Clear inp) (ht : s.step inp = some t) (ha : s.com.link.Confined s.accepted) :
    t.com.link.Confined t.accepted := by
  obtain ⟨hservice, hloaded⟩ := h.radioComTxService hquiet
  have hair : (s.radioComTxService inp).com.link.Confined s.accepted :=
    (h.calm.schedule inp.irqs).confined_radioComTxService hquiet ha
  unfold Sender.step at ht
  split_ifs at ht with hpower
  · obtain ⟨v, hv, rfl⟩ := Option.map_eq_some_iff.mp ht
    obtain ⟨u, hu, hv⟩ := Option.bind_eq_some_iff.mp hv
    obtain ⟨w, hw, hu⟩ := Option.bind_eq_some_iff.mp hu
    have hbeats := heartbeat_spec hw
    have hsteady := hservice.interrupt.beats hbeats
    have hkept : Kept w := Kept.beats (s := (s.radioComTxService inp).interrupt) hk hbeats
    have hsame : w.com.txBytesLoaded = 0 := by
      rw [hbeats.eq]
      exact hloaded
    have hsent := hsteady.send hkept hsame hu
    have hwconfined : w.com.link.Confined w.accepted := by
      rw [hbeats.eq]
      exact hservice.confined_interrupt hair
    have huconfined := hsteady.confined_send hu hwconfined fun hst hqueued => by
      refine hclear _ ?_
      rw [Sender.tunedFrom, if_pos hpower, hw, Option.bind_some, if_pos ⟨hst, hqueued⟩]
      rfl
    obtain ⟨c, hc, rfl⟩ := Option.map_eq_some_iff.mp hv
    exact (relay_preserves (Com.rxParts_confined _ _) ⟨hsent.calm, huconfined⟩ hc).2
  · obtain rfl := Option.some.inj ht
    exact hair

theorem confined_of_run
    (hr : Run step (fun s inp => s.Quiet inp ∧ s.Clear inp) (init param_radio_channel) s) :
    s.com.link.Confined s.accepted := by
  have hstart : (init param_radio_channel).com.link.Confined [] := by
    intro p hp
    cases hp
  have hinv := Run.invariant (I := fun s => (Steady s ∧ Kept s) ∧ s.com.link.Confined s.accepted) hr
    ⟨steady_init param_radio_channel, hstart⟩ fun s inp t hi hclear ht =>
      ⟨hi.1.1.step hi.1.2 hclear.1 ht, hi.1.1.confined_step hi.1.2 hclear.1 hclear.2 ht hi.2⟩
  exact hinv.2

/-! ### Complete rounds -/

/-- Each channel that was live throughout the round got the batch, once and in order. -/
def RepeatsBatch (s : Sender) : Prop :=
  ∀ i ≤ lastChannelIndex, Live s.round.states i →
    s.round.passedOn (channelList i) = s.tempData

/-- What is queued or under construction was accepted on the channel that the radio is tuned to, and
an event of the radio would transmit nothing else. -/
def QueuesForChannel (s : Sender) : Prop :=
  dataBytes s.com.link.view.queue ++ s.com.loadedBytes <:+ s.accepted ∧
    ∀ r e, (s.com.link.radioMacEvent r e).Confined s.accepted

/-- So was what the radio transmits now. -/
def KeepsToChannel (s : Sender) : Prop := s.QueuesForChannel ∧ s.com.link.Confined s.accepted

theorem Steady.queuesForChannel (h : Steady s) : s.QueuesForChannel := by
  have hpending := h.calm.pending
  exact ⟨hpending.bytes,
    Node.confined_radioMacEvent hpending.serviceable.toInRange hpending.loaded hpending.queue⟩

/-- Tuning empties the queue, but does not end a transmission. -/
theorem Steady.keepsToChannel_iff (h : Steady s) (hquiet : s.Quiet inp)
    (hu : s.tunedFrom inp = some u) :
    u.radioLinkChangeChannel.KeepsToChannel ↔ s.Clear inp := by
  have hsame : u.radioLinkChangeChannel.com.link.Confined [] ↔ u.com.link.Confined [] := Iff.rfl
  constructor
  · intro hkeeps v hv
    obtain rfl := Option.some.inj (hu.symm.trans hv)
    exact hsame.mp hkeeps.2
  · exact fun hclear => ⟨(h.tunedFrom hquiet hu).queuesForChannel, hsame.mpr (hclear u hu)⟩

theorem flatten_replicate_eq_iff {batch : List UInt8} {n : ℕ} (hne : batch ≠ [])
    (hlen : batch.length ≤ maxTxBytes) (hn : n ≤ 2) :
    (List.replicate n (batch.take emptyRoom)).flatten = batch ↔
      n = 1 ∧ batch.length ≤ emptyRoom := by
  have hpos := List.length_pos_iff.mpr hne
  constructor
  · intro he
    have hlength := congrArg List.length he
    rw [List.length_flatten, List.map_replicate, List.sum_replicate_nat,
      List.length_take] at hlength
    simp only [emptyRoom, maxTxBytes] at *
    obtain rfl | rfl | rfl : n = 0 ∨ n = 1 ∨ n = 2 := by omega
    · omega
    · omega
    · omega
  · rintro ⟨rfl, hle⟩
    rw [List.replicate_one, List.flatten_singleton, List.take_of_length_le hle]

theorem copies_eq_one_iff {r : Round} (hi : i ≤ lastChannelIndex) :
    r.copies (lastChannelIndex + 1) i = 1 ↔
      (r.channr = channelList i ↔ i ≤ r.channelCounter) := by
  have hlt : i < lastChannelIndex + 1 := Nat.lt_succ_of_le hi
  unfold Round.copies
  by_cases hc : r.channr = channelList i <;> by_cases hk : i ≤ r.channelCounter <;>
    simp [hc, hk, hlt]

theorem copies_le_two (r : Round) (k i : ℕ) : r.copies k i ≤ 2 := by
  unfold Round.copies
  split_ifs <;> decide

/-- As long as no data is in transmission when the radio is tuned, everything goes out on the channel
on which it was accepted; otherwise the rest of it goes out on the new channel. After every round,
each channel that was live throughout the round has got the batch if and only if the batch has at
most fourteen bytes and these channels are, up to the channel counter at the beginning of the round,
exactly the one to which the radio was tuned then. -/
theorem batch_repeated_iff (hr : Run step Quiet (init param_radio_channel) s) :
    s.QueuesForChannel ∧
    (Run step (fun s inp => s.Quiet inp ∧ s.Clear inp) (init param_radio_channel) s →
      s.KeepsToChannel) ∧
    (∀ inp u, s.Quiet inp → s.tunedFrom inp = some u →
      (u.radioLinkChangeChannel.KeepsToChannel ↔ s.Clear inp)) ∧
    (s.sendingState = .default → s.tempData ≠ [] →
      (s.RepeatsBatch ↔ s.tempData.length ≤ emptyRoom ∧
        ∀ i ≤ lastChannelIndex, Live s.round.states i →
          (s.round.channr = channelList i ↔ i ≤ s.round.channelCounter))) := by
  obtain ⟨h, -⟩ := steady_of_run hr
  refine ⟨h.queuesForChannel, fun hclear => ⟨h.queuesForChannel, confined_of_run hclear⟩,
    fun inp u hquiet hu => h.keepsToChannel_iff hquiet hu, fun hst hne => ?_⟩
  have hphase := h.phase
  rw [Phase, hst] at hphase
  have heach : ∀ i ≤ lastChannelIndex, Live s.round.states i →
      (s.round.passedOn (channelList i) = s.tempData ↔
        (s.round.channr = channelList i ↔ i ≤ s.round.channelCounter) ∧
          s.tempData.length ≤ emptyRoom) := by
    intro i hi hl
    rw [hphase.2 hne i hi hl, flatten_replicate_eq_iff hne h.length (copies_le_two _ _ _),
      copies_eq_one_iff hi]
  constructor
  · intro hrepeats
    have hlast := (heach _ (Nat.le_refl _) h.last.2).mp (hrepeats _ (Nat.le_refl _) h.last.2)
    exact ⟨hlast.2, fun i hi hl => ((heach i hi hl).mp (hrepeats i hi hl)).1⟩
  · rintro ⟨hlen, htuned⟩ i hi hl
    exact (heach i hi hl).mpr ⟨htuned i hi hl, hlen⟩

/-- The radio connects and gets the queued packet acknowledged while the queue is awaited. -/
def acknowledged : Input :=
  ⟨[[], [], [], [], startListening ++ receiveFrame [1, packetType .ack] ++
    receiveFrame [1, packetType .ack]], true, 0, 0, [], []⟩

def sendEverywhere (batch : List UInt8) : List Input :=
  ⟨[], true, 0, 0, batch, []⟩ ::
    (List.range 16).flatMap fun _ => [⟨[], true, 0, 0, [], []⟩, acknowledged]

/-- One byte from a radio that was tuned to the first channel, with nothing but resets and
acknowledgements in transmission. -/
theorem batch_repeated_on_sixteen_channels : ∃ s : Sender,
    (s.sendingState = .default ∧ s.tempData = [7] ∧ s.round.states = 0xFFFF) ∧
    s.RepeatsBatch ∧ s.KeepsToChannel := by
  have hrun : (exec step (fun s inp => s.Quiet inp ∧ s.Clear inp) (init 0) (sendEverywhere [7])).map
      (fun s => ((s.sendingState, s.tempData, s.round.states),
        s.round.channr, s.round.channelCounter)) =
      some ((.default, [7], 0xFFFF), 0, 0) := by decide +kernel
  obtain ⟨s, hr, hobs⟩ := exists_run_of_exec hrun
  obtain ⟨⟨hst, hdata, hstates⟩, hchannr, hcounter⟩ :
      (s.sendingState = .default ∧ s.tempData = [7] ∧ s.round.states = 0xFFFF) ∧
        s.round.channr = 0 ∧ s.round.channelCounter = 0 := by
    simpa only [Prod.mk.injEq] using hobs
  obtain ⟨-, hkeeps, -, hrounds⟩ := batch_repeated_iff (hr.mono fun _ _ hc => hc.1)
  refine ⟨s, ⟨hst, hdata, hstates⟩, (hrounds hst (by rw [hdata]; decide)).mpr ⟨?_, ?_⟩, hkeeps hr⟩
  · rw [hdata]
    decide
  · rw [hchannr, hcounter]
    have hfirst : ∀ i ≤ lastChannelIndex, 0 = channelList i ↔ i ≤ 0 := by decide
    exact fun i hi _ => hfirst i hi

/-- A byte whose packet is in transmission when the channel is given up. -/
def givenUp : List Input :=
  [⟨[], true, 0, 0, [7], []⟩, ⟨[], true, 0, 0, [], []⟩,
    ⟨[[], [], [], [], startListening ++ [.dma [1, packetType .ack], .event .rx ⟨true, 0⟩]],
      true, 0, 0, [], []⟩] ++ List.replicate 255 ⟨[], true, 0, 0, [], []⟩

/-- Of fifteen bytes each channel gets fourteen. If the radio starts on another channel than the
first, the first channel does not get the first batch at all. A byte that is in transmission when
its channel is given up goes out on the next one. -/
theorem batch_not_repeated :
    (∃ s, Run step Quiet (init 0) s ∧ s.sendingState = .default ∧
      s.tempData = List.replicate 15 7 ∧ ¬ s.RepeatsBatch) ∧
    (∃ s, Run step Quiet (init 128) s ∧ s.sendingState = .default ∧ s.tempData = [7] ∧
      ¬ s.RepeatsBatch) ∧
    ∃ s, Run step Quiet (init 0) s ∧ s.com.link.channr = 17 ∧ s.accepted = [] ∧
      s.com.link.carried.map Packet.payload = some [7] ∧ ¬ s.KeepsToChannel := by
  have hcut : (exec step Quiet (init 0) (sendEverywhere (List.replicate 15 7))).map
      (fun s => (s.sendingState, s.tempData, decide (Live s.round.states 0),
        s.round.passedOn (channelList 0))) =
      some (.default, List.replicate 15 7, true, List.replicate 14 7) := by decide +kernel
  have hmissed : (exec step Quiet (init 128) (sendEverywhere [7])).map
      (fun s => (s.sendingState, s.tempData, decide (Live s.round.states 0),
        s.round.passedOn (channelList 0))) = some (.default, [7], true, []) := by decide +kernel
  have hfails : ∀ {s : Sender} {batch bytes : List UInt8},
      (s.sendingState, s.tempData, decide (Live s.round.states 0),
        s.round.passedOn (channelList 0)) = (.default, batch, true, bytes) → bytes ≠ batch →
      s.sendingState = .default ∧ s.tempData = batch ∧ ¬ s.RepeatsBatch := by
    intro s batch bytes hobs hne
    obtain ⟨hst, hdata, hlive, hpassed⟩ :
        s.sendingState = .default ∧ s.tempData = batch ∧ decide (Live s.round.states 0) = true ∧
          s.round.passedOn (channelList 0) = bytes := by
      simpa only [Prod.mk.injEq] using hobs
    refine ⟨hst, hdata, fun hrepeats => hne ?_⟩
    rw [← hpassed, ← hdata]
    exact hrepeats 0 (Nat.zero_le _) (of_decide_eq_true hlive)
  have hstale : (exec step Quiet (init 0) givenUp).map
      (fun s => (s.com.link.channr, s.accepted, s.com.link.carried.map Packet.payload,
        decide (s.com.link.Confined []))) = some (17, [], some [7], false) := by decide +kernel
  obtain ⟨s, hr, hobs⟩ := exists_run_of_exec hcut
  obtain ⟨t, hr', hobs'⟩ := exists_run_of_exec hmissed
  obtain ⟨u, hr'', hobs''⟩ := exists_run_of_exec hstale
  obtain ⟨hchannr, haccepted, hpayload, hconfined⟩ :
      u.com.link.channr = 17 ∧ u.accepted = [] ∧
        u.com.link.carried.map Packet.payload = some [7] ∧
        decide (u.com.link.Confined []) = false := by
    simpa only [Prod.mk.injEq] using hobs''
  refine ⟨⟨s, hr, hfails hobs (by decide)⟩, ⟨t, hr', hfails hobs' (by decide)⟩,
    u, hr'', hchannr, haccepted, hpayload, fun hkeeps => of_decide_eq_false hconfined ?_⟩
  rw [← haccepted]
  exact hkeeps.2

end Sender

end WixelSdk.Multichannel
