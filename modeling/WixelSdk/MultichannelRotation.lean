import WixelSdk.Cyclic
import WixelSdk.Multichannel

/-!
# The rotation of the channels

What `findNextChannel`, the heartbeat and the timeout do to `channelCounter`, `deadchannelCounter`
and `channelStates`, for all values of them. Channels are places on a circle of sixteen.
-/

namespace WixelSdk.Multichannel.Sender
open Transition Cyclic

variable {s t u : Sender} {inp : Input} {param_radio_channel : UInt8}

/-- What every iteration of the main loop keeps. -/
structure Rotating (s : Sender) : Prop where
  counter : s.channelCounter ≤ lastChannelIndex
  dead : s.deadchannelCounter ≤ 15 ∨ s.deadchannelCounter = 255
  rollover : s.sendingState ≠ .changing → s.rollover = false

/-- An iteration with USB power in which nothing happens. -/
def idle : Input := ⟨[], true, 0, 0, [], []⟩

/-! ### findNextChannel -/

def Advances (s t : Sender) (d : ℕ) : Prop :=
  t = { s with
    channelCounter := (s.channelCounter + d) % 16
    rollover := s.rollover || decide (16 ≤ s.channelCounter + d) }

theorem advances_nextChannel (hs : s.channelCounter ≤ lastChannelIndex) :
    Advances s s.nextChannel 1 := by
  unfold Advances
  rcases nextChannel_cases hs with ⟨hlast, he⟩ | ⟨hlt, he⟩
  · rw [he, hlast]
    simp
  · have hnext : s.channelCounter + 1 < 16 := Nat.succ_lt_succ hlt
    have hmod : (s.channelCounter + 1) % 16 = s.channelCounter + 1 := Nat.mod_eq_of_lt hnext
    have hwrap : ¬ 16 ≤ s.channelCounter + 1 := Nat.not_le.mpr hnext
    rw [he, hmod, decide_eq_false hwrap, Bool.or_false]

theorem Advances.trans {d e : ℕ} (h : Advances s t d) (h' : Advances t u e) :
    Advances s u (d + e) := by
  unfold Advances at *
  subst h
  rw [h']
  have hmod : ((s.channelCounter + d) % 16 + e) % 16 = (s.channelCounter + (d + e)) % 16 := by
    omega
  have hwrap : (decide (16 ≤ s.channelCounter + d) || decide (16 ≤ (s.channelCounter + d) % 16 + e)) =
      decide (16 ≤ s.channelCounter + (d + e)) := by
    rw [← Bool.decide_or, decide_eq_decide]
    omega
  simp only [hmod, Bool.or_assoc, hwrap]

theorem Advances.counter {d : ℕ} (h : Advances s t d) :
    t.channelCounter = (s.channelCounter + d) % 16 := by
  rw [h]

theorem Advances.channelStates {d : ℕ} (h : Advances s t d) :
    t.channelStates = s.channelStates := by
  rw [h]

theorem skipDead_advances {fuel : ℕ} (hs : s.channelCounter ≤ lastChannelIndex)
    (ht : s.skipDead fuel = some t) : ∃ d, Advances s t d ∧ Live s.channelStates t.channelCounter ∧
      ∀ e < d, ¬ Live s.channelStates ((s.channelCounter + e) % 16) := by
  induction fuel generalizing s with
  | zero => cases ht
  | succ fuel ih =>
      rw [skipDead] at ht
      have hlt : s.channelCounter < 16 := Nat.lt_succ_of_le hs
      have hmod : s.channelCounter % 16 = s.channelCounter := Nat.mod_eq_of_lt hlt
      split_ifs at ht with hdead
      · have hfirst := advances_nextChannel hs
        obtain ⟨d, hrest, hlive, hskip⟩ := ih (nextChannel_le hs) ht
        rw [hfirst.channelStates] at hlive hskip
        rw [hfirst.counter] at hskip
        refine ⟨1 + d, hfirst.trans hrest, hlive, fun e he => ?_⟩
        cases e with
        | zero =>
            rw [Nat.add_zero, hmod]
            exact not_not.mpr hdead
        | succ e =>
            have hsame : ((s.channelCounter + 1) % 16 + e) % 16 =
                (s.channelCounter + (e + 1)) % 16 := by omega
            rw [← hsame]
            exact hskip e (by omega)
      · obtain rfl := Option.some.inj ht
        refine ⟨0, ?_, hdead, fun e he => absurd he (Nat.not_lt_zero e)⟩
        unfold Advances
        have hwrap : ¬ 16 ≤ s.channelCounter + 0 := Nat.not_le.mpr hlt
        rw [decide_eq_false hwrap, Bool.or_false, Nat.add_zero, hmod]

/-- The search stops at the next live channel. The rollover is noted when it went past the last
channel, that is, when it did not stop after the channel where it began. -/
theorem findNextChannel_next (hs : s.channelCounter ≤ lastChannelIndex)
    (hne : s.channelStates ≠ 0) : ∃ k, Next 16 (Live s.channelStates) s.channelCounter k ∧
      s.findNextChannel = some { s with
        channelCounter := k, rollover := s.rollover || decide (k ≤ s.channelCounter) } := by
  obtain ⟨t, ht⟩ := findNextChannel_returns hs
  have hsearch := ht
  rw [findNextChannel, if_neg hne] at hsearch
  have hfirst := advances_nextChannel hs
  obtain ⟨d, hrest, hlive, hskip⟩ := skipDead_advances (nextChannel_le hs) hsearch
  have hall := hfirst.trans hrest
  rw [hfirst.channelStates] at hlive hskip
  rw [hfirst.counter] at hskip
  have hcounter := hall.counter
  have hahead : Ahead 16 (Live s.channelStates) s.channelCounter (1 + d) := by
    refine ⟨by omega, hcounter ▸ hlive, fun e hpos hlt => ?_⟩
    have hsame : ((s.channelCounter + 1) % 16 + (e - 1)) % 16 = (s.channelCounter + e) % 16 := by
      omega
    rw [← hsame]
    exact hskip (e - 1) (by omega)
  have hle := hahead.le (by decide)
  have hlt : s.channelCounter < 16 := Nat.lt_succ_of_le hs
  have hwrap : 16 ≤ s.channelCounter + (1 + d) ↔
      (s.channelCounter + (1 + d)) % 16 ≤ s.channelCounter := by
    omega
  refine ⟨_, ⟨1 + d, hahead, rfl⟩, ht.trans (congrArg some ?_)⟩
  rw [hall, decide_eq_decide.mpr hwrap]

/-- The sending step: it goes on to the next live channel; without one, it goes back to the state in
which the next batch is read. -/
def Rotates (s t : Sender) : Prop :=
  if s.channelStates = 0 then
    t.channelCounter = s.channelCounter ∧ t.sendingState = .default
  else
    Next 16 (Live s.channelStates) s.channelCounter t.channelCounter ∧
      (t.rollover = true ↔ t.channelCounter ≤ s.channelCounter) ∧ t.sendingState = .changing

theorem send_of_no_live (hst : s.sendingState = .sending) (hzero : s.channelStates = 0) :
    ∃ t, s.send inp = some t ∧ ¬ Rotates s t := by
  have hzero' : s.passBatch.channelStates = 0 := hzero
  refine ⟨{ s.passBatch with sendingState := .changing }, ?_, ?_⟩
  · rw [send, hst]
    dsimp only
    rw [sendBatch, findNextChannel, if_pos hzero']
    rfl
  · rw [Rotates, if_pos hzero]
    rintro ⟨-, hdefault⟩
    cases hdefault

/-- The sending step always ends, and it rotates the channels if and only if some channel is
live. -/
theorem send_rotates_iff (h : s.Rotating) (hst : s.sendingState = .sending) (inp : Input) :
    ∃ t, s.send inp = some t ∧ (Rotates s t ↔ s.channelStates ≠ 0) := by
  by_cases hzero : s.channelStates = 0
  · obtain ⟨t, ht, hstays⟩ : ∃ t, s.send inp = some t ∧ ¬ Rotates s t :=
      send_of_no_live hst hzero
    exact ⟨t, ht, iff_of_false hstays (not_not.mpr hzero)⟩
  · obtain ⟨k, hnext, hfind⟩ := findNextChannel_next (s := s.passBatch) h.counter hzero
    have hroll : s.passBatch.rollover = false := h.rollover (by rw [hst]; decide)
    refine ⟨{ s.passBatch with
      channelCounter := k
      rollover := s.passBatch.rollover || decide (k ≤ s.channelCounter)
      sendingState := .changing }, ?_, iff_of_true ?_ hzero⟩
    · rw [send, hst]
      dsimp only
      rw [sendBatch, hfind]
      rfl
    · rw [Rotates, if_neg hzero]
      refine ⟨hnext, ?_, rfl⟩
      dsimp only
      rw [hroll, Bool.false_or, decide_eq_true_iff]

def aboutToSend (channelStates : UInt16) (channelCounter : ℕ) : Sender :=
  { init 0 with
    sendingState := .sending
    channelCounter := channelCounter
    channelStates := channelStates
    tempData := [7] }

theorem rotating_aboutToSend {channelStates : UInt16} {channelCounter : ℕ}
    (h : channelCounter ≤ lastChannelIndex) : (aboutToSend channelStates channelCounter).Rotating :=
  ⟨h, Or.inr rfl, fun _ => rfl⟩

/-- The channels 1 and 3 are live, and the counter is at the last one. -/
theorem send_rotates_past_last : ∃ t, (aboutToSend 0x000A 15).send idle = some t ∧
    Rotates (aboutToSend 0x000A 15) t := by
  obtain ⟨t, ht, hiff⟩ := send_rotates_iff (rotating_aboutToSend (Nat.le_refl _)) rfl idle
  exact ⟨t, ht, hiff.mpr (by decide)⟩

/-- Without a live channel, the radio is tuned to the dead channel of the counter, and the batch is
sent there once more. -/
theorem no_live_sends_again :
    (aboutToSend 0 0).Rotating ∧
    (∃ t, (aboutToSend 0 0).send idle = some t ∧ ¬ Rotates (aboutToSend 0 0) t) ∧
    (exec step Quiet (aboutToSend 0 0) [idle, acknowledged, idle]).map
      (fun s => (s.channelStates, s.round.passed)) = some (0, [(0, 7), (0, 7)]) :=
  ⟨rotating_aboutToSend (Nat.zero_le _), send_of_no_live rfl rfl, by decide +kernel⟩

/-! ### The heartbeat -/

def revived (s : Sender) : UInt8 :=
  if s.nextDead.deadchannelCounter = 0 ∧ Live s.channelStates 0 then 1
  else s.nextDead.deadchannelCounter

theorem live_or_bit {states : UInt16} {i k : ℕ} (hi : i ≤ lastChannelIndex) :
    Live (states ||| bit k) i ↔ Live states i ∨ k = i := by
  rw [live_iff hi, live_iff hi, UInt16.toBitVec_or, BitVec.getLsbD_or, getLsbD_bit hi]
  simp

theorem eq_of_live_iff {states states' : UInt16}
    (h : ∀ i ≤ lastChannelIndex, Live states i ↔ Live states' i) : states = states' := by
  refine UInt16.toBitVec_inj.mp (BitVec.eq_of_getLsbD_eq fun i hi => ?_)
  have hlive := h i (Nat.le_of_lt_succ hi)
  rw [live_iff (Nat.le_of_lt_succ hi), live_iff (Nat.le_of_lt_succ hi)] at hlive
  exact Bool.eq_iff_iff.mpr hlive

theorem eq_all_live {states : UInt16} (h : ∀ i ≤ lastChannelIndex, Live states i) :
    states = 0xFFFF := by
  have hall : ∀ i ≤ lastChannelIndex, Live 0xFFFF i := by decide
  exact eq_of_live_iff fun i hi => iff_of_true (h i hi) (hall i hi)

theorem and_bit_eq_one_iff {states : UInt16} {k : ℕ} :
    states &&& bit k = 1 ↔ k = 0 ∧ Live states 0 := by
  constructor
  · intro h
    obtain rfl := bit_zero_of_and_eq_one h
    exact ⟨rfl, fun hzero => absurd (h.symm.trans hzero) (by decide)⟩
  · rintro ⟨rfl, hlive⟩
    have hone : (1 : UInt16) = bit 0 := rfl
    rw [hone]
    refine eq_of_live_iff fun i hi => ?_
    rw [live_and hi]
    refine ⟨fun h => h.2, fun h => ⟨?_, h⟩⟩
    have hi0 : 0 = i := by
      rw [live_iff hi, getLsbD_bit hi] at h
      exact of_decide_eq_true h
    exact hi0 ▸ hlive

theorem nextDead_deadchannelCounter (s : Sender) : s.nextDead.deadchannelCounter =
    if s.deadchannelCounter + 1 > 15 then 0 else s.deadchannelCounter + 1 := rfl

/-- The search ends at channel 0 or 1 in its second step at the latest. -/
theorem skipLive_nextDead (fuel : ℕ) : s.nextDead.skipLive (fuel + 2) =
    some { s with deadchannelCounter := s.revived } := by
  rw [skipLive]
  split_ifs with hzero
  · obtain ⟨hd, hlive⟩ := and_bit_eq_one_iff.mp hzero
    have hd' : s.nextDead.deadchannelCounter = 0 := UInt8.toNat_inj.mp hd
    have hone : s.nextDead.nextDead.deadchannelCounter = 1 := by
      rw [nextDead_deadchannelCounter, hd']
      rfl
    have hrev : s.revived = 1 := if_pos ⟨hd', hlive⟩
    rw [skipLive, if_neg fun he => absurd (bit_zero_of_and_eq_one he) (by rw [hone]; decide), hrev,
      ← hone]
    rfl
  · have hrev : s.revived = s.nextDead.deadchannelCounter := by
      refine if_neg fun h => hzero (and_bit_eq_one_iff.mpr ⟨?_, h.2⟩)
      rw [h.1]
      rfl
    rw [hrev]
    rfl

def Elapsed (s : Sender) (inp : Input) : Prop := inp.checkTime - s.lastTime > heartbeatTime

instance (s : Sender) (inp : Input) : Decidable (s.Elapsed inp) :=
  inferInstanceAs (Decidable (_ > _))

theorem heartbeat_of_elapsed (hdead : s.channelStates ≠ 0xFFFF) (he : s.Elapsed inp) :
    s.heartbeat inp = some { s with
      lastTime := inp.storeTime
      deadchannelCounter := s.revived
      channelStates := s.channelStates ||| bit s.revived.toNat } := by
  have hperiod : inp.checkTime - s.lastTime > heartbeatTime := he
  unfold heartbeat
  rw [if_pos hperiod, if_pos hdead, skipLive_nextDead]
  rfl

theorem heartbeat_of_not (h : ¬ (s.channelStates ≠ 0xFFFF ∧ s.Elapsed inp)) :
    ∃ time, s.heartbeat inp = some { s with lastTime := time } := by
  unfold heartbeat
  split_ifs with he hdead
  · exact absurd ⟨hdead, he⟩ h
  · exact ⟨_, rfl⟩
  · exact ⟨_, rfl⟩

/-- Exactly one bit of `channelStates` is set that was 0, that of the next dead channel. -/
def Revives (s t : Sender) : Prop :=
  ∃ k, Next 16 (fun i => ¬ Live s.channelStates i) s.deadchannelCounter.toNat k ∧
    t.channelStates = s.channelStates ||| bit k

theorem nextDead_toNat (hd : s.deadchannelCounter ≤ 15 ∨ s.deadchannelCounter = 255) :
    s.nextDead.deadchannelCounter.toNat = (s.deadchannelCounter.toNat + 1) % 16 := by
  have hall : ∀ v : BitVec 8, (⟨v⟩ : UInt8) ≤ 15 ∨ (⟨v⟩ : UInt8) = 255 →
      (if (⟨v⟩ : UInt8) + 1 > 15 then (0 : UInt8) else ⟨v⟩ + 1).toNat =
        ((⟨v⟩ : UInt8).toNat + 1) % 16 := by
    decide +kernel
  exact hall s.deadchannelCounter.toBitVec hd

/-- `revived` is the channel after `deadchannelCounter`, or channel 1 when that is channel 0 and
live. -/
theorem revived_cases (hd : s.deadchannelCounter ≤ 15 ∨ s.deadchannelCounter = 255) :
    ((s.deadchannelCounter.toNat + 1) % 16 = 0 ∧ Live s.channelStates 0 ∧ s.revived = 1) ∨
    (((s.deadchannelCounter.toNat + 1) % 16 = 0 → ¬ Live s.channelStates 0) ∧
      s.revived.toNat = (s.deadchannelCounter.toNat + 1) % 16) := by
  have hnext := nextDead_toNat hd
  unfold revived
  split_ifs with h
  · rw [h.1] at hnext
    exact Or.inl ⟨hnext.symm, h.2, rfl⟩
  · refine Or.inr ⟨fun hz hlive => h ⟨?_, hlive⟩, hnext⟩
    exact UInt8.toNat_inj.mp (hnext.trans hz)

theorem revived_le (hd : s.deadchannelCounter ≤ 15 ∨ s.deadchannelCounter = 255) :
    s.revived.toNat ≤ lastChannelIndex := by
  rcases revived_cases hd with ⟨-, -, hone⟩ | ⟨-, he⟩
  · rw [hone]
    decide
  · rw [he]
    exact Nat.le_of_lt_succ (Nat.mod_lt _ (by decide))

/-- A dead channel that is revived is the next one. -/
theorem next_revived (hd : s.deadchannelCounter ≤ 15 ∨ s.deadchannelCounter = 255)
    (hdead : ¬ Live s.channelStates s.revived.toNat) :
    Next 16 (fun i => ¬ Live s.channelStates i) s.deadchannelCounter.toNat s.revived.toNat := by
  rcases revived_cases hd with ⟨hz, hlive, hone⟩ | ⟨-, he⟩
  · rw [hone] at hdead ⊢
    have hsecond : (s.deadchannelCounter.toNat + 1 + 1) % 16 = (1 : UInt8).toNat := by
      change _ = 1
      omega
    rw [← hsecond] at hdead ⊢
    refine (next_of_holds hdead).of_skip ?_
    rw [hz]
    exact not_not.mpr hlive
  · rw [he] at hdead ⊢
    exact next_of_holds hdead

/-- The channel after `deadchannelCounter` is dead, or it is channel 0 and channel 1 is dead. -/
def MeetsDead (s : Sender) : Prop :=
  ¬ Live s.channelStates ((s.deadchannelCounter.toNat + 1) % 16) ∨
    (s.deadchannelCounter.toNat + 1) % 16 = 0 ∧ ¬ Live s.channelStates 1

instance (s : Sender) : Decidable s.MeetsDead := inferInstanceAs (Decidable (_ ∨ _ ∧ _))

theorem meetsDead_iff (hd : s.deadchannelCounter ≤ 15 ∨ s.deadchannelCounter = 255) :
    s.MeetsDead ↔ ¬ Live s.channelStates s.revived.toNat := by
  unfold MeetsDead
  rcases revived_cases hd with ⟨hz, hlive, hone⟩ | ⟨hz, he⟩
  · rw [hone, hz]
    exact (or_iff_right (not_not.mpr hlive)).trans (and_iff_right rfl)
  · rw [he]
    refine or_iff_left_of_imp fun h => ?_
    rw [h.1]
    exact hz h.1

theorem revives_iff (hd : s.deadchannelCounter ≤ 15 ∨ s.deadchannelCounter = 255)
    (ht : t.channelStates = s.channelStates ||| bit s.revived.toNat) :
    Revives s t ↔ s.MeetsDead := by
  have hle := revived_le hd
  rw [meetsDead_iff hd]
  constructor
  · rintro ⟨k, hnext, hset⟩ hlive
    have hk : k ≤ lastChannelIndex := Nat.le_of_lt_succ (hnext.lt (by decide))
    have hbit : Live (s.channelStates ||| bit k) k := (live_or_bit hk).mpr (Or.inr rfl)
    rw [← hset, ht, live_or_bit hk] at hbit
    rcases hbit with hl | he
    · exact hnext.holds hl
    · exact hnext.holds (he ▸ hlive)
  · exact fun hdead => ⟨_, next_revived hd hdead, ht⟩

/-! ### The timeout -/

/-- The queue is not empty, and `channelChangeTries` exceeds MAX_CHANNEL_CHANGE_TRIES. -/
def GivesUp (s : Sender) : Prop :=
  s.sendingState = .changing ∧ s.interrupt.com.link.radioLinkTxQueued ≠ 0 ∧
    s.channelChangeTries + 1 > maxChannelChangeTries

def TimesOut (s : Sender) (inp : Input) : Prop :=
  inp.usbPower = true ∧ (s.radioComTxService inp).interrupt.GivesUp

instance (s : Sender) (inp : Input) : Decidable (s.TimesOut inp) :=
  inferInstanceAs (Decidable (_ ∧ _ ∧ _ ∧ _))

theorem send_of_givesUp (h : s.GivesUp) : s.send inp = some { s.interrupt.interrupt with
    channelChangeTries := s.channelChangeTries + 1
    channelStates := s.channelStates &&& ~~~bit ((s.channelCounter + 255) % 256)
    com := s.interrupt.interrupt.com.radioLinkTxQueueReset } := by
  obtain ⟨hst, hqueued, htries⟩ := h
  rw [send, hst]
  dsimp only
  rw [changeChannel, if_neg hqueued, countTry]
  have htries' : s.interrupt.interrupt.channelChangeTries + 1 > maxChannelChangeTries := htries
  dsimp only
  rw [if_pos htries']
  rfl

/-- The channels are as before, and so is the time of the last heartbeat. -/
structure KeepsChannels (s t : Sender) : Prop where
  deadchannelCounter : t.deadchannelCounter = s.deadchannelCounter
  channelStates : t.channelStates = s.channelStates
  lastTime : t.lastTime = s.lastTime

theorem KeepsChannels.refl : KeepsChannels s s := ⟨rfl, rfl, rfl⟩

theorem KeepsChannels.trans (h : KeepsChannels s t) (h' : KeepsChannels t u) :
    KeepsChannels s u :=
  ⟨h'.deadchannelCounter.trans h.deadchannelCounter, h'.channelStates.trans h.channelStates,
    h'.lastTime.trans h.lastTime⟩

theorem keepsChannels_skipDead {fuel : ℕ} (ht : s.skipDead fuel = some t) : KeepsChannels s t := by
  induction fuel generalizing s with
  | zero => cases ht
  | succ fuel ih =>
      rw [skipDead] at ht
      split_ifs at ht
      · have hnext : KeepsChannels s s.nextChannel := by
          unfold nextChannel
          split_ifs <;> exact ⟨rfl, rfl, rfl⟩
        exact hnext.trans (ih ht)
      · obtain rfl := Option.some.inj ht
        exact .refl

theorem keepsChannels_findNextChannel (ht : s.findNextChannel = some t) : KeepsChannels s t := by
  unfold findNextChannel at ht
  split_ifs at ht
  · obtain rfl := Option.some.inj ht
    exact ⟨rfl, rfl, rfl⟩
  · refine KeepsChannels.trans ?_ (keepsChannels_skipDead ht)
    unfold nextChannel
    split_ifs <;> exact ⟨rfl, rfl, rfl⟩

theorem keepsChannels_send (hno : ¬ s.GivesUp) (ht : s.send inp = some t) : KeepsChannels s t := by
  unfold send at ht
  split at ht
  · obtain rfl := Option.some.inj ht
    unfold readBatch
    split_ifs <;> exact ⟨rfl, rfl, rfl⟩
  · obtain ⟨u, hu, rfl⟩ := Option.map_eq_some_iff.mp ht
    have hfind := keepsChannels_findNextChannel hu
    exact ⟨hfind.deadchannelCounter, hfind.channelStates, hfind.lastTime⟩
  · rename_i hst
    obtain rfl := Option.some.inj ht
    unfold changeChannel
    split_ifs with hqueued
    · exact ⟨rfl, rfl, rfl⟩
    · have htries : ¬ s.interrupt.interrupt.channelChangeTries + 1 > maxChannelChangeTries :=
        fun htries => hno ⟨hst, hqueued, htries⟩
      unfold countTry
      dsimp only
      rw [if_neg htries]
      exact ⟨rfl, rfl, rfl⟩

/-- An iteration of the main loop: only the layers below change where no part is named. -/
theorem step_cases (ht : s.step inp = some t) :
    (inp.usbPower = false ∧ t = (s.radioComTxService inp).observe) ∨
    (inp.usbPower = true ∧ ∃ u v c, (s.radioComTxService inp).interrupt.heartbeat inp = some u ∧
      u.send inp = some v ∧ t = observe { v with com := c }) := by
  unfold step at ht
  split_ifs at ht with hpower
  · obtain ⟨w, hw, rfl⟩ := Option.map_eq_some_iff.mp ht
    obtain ⟨v, hv, hw⟩ := Option.bind_eq_some_iff.mp hw
    obtain ⟨u, hu, hv⟩ := Option.bind_eq_some_iff.mp hv
    obtain ⟨c, -, rfl⟩ := Option.map_eq_some_iff.mp hw
    exact Or.inr ⟨hpower, u, v, c, hu, hv, rfl⟩
  · obtain rfl := Option.some.inj ht
    exact Or.inl ⟨Bool.eq_false_iff.mpr hpower, rfl⟩

theorem Rotating.heartbeat (h : s.Rotating) (ht : s.heartbeat inp = some t) : t.Rotating := by
  by_cases hb : s.channelStates ≠ 0xFFFF ∧ s.Elapsed inp
  · rw [heartbeat_of_elapsed hb.1 hb.2] at ht
    obtain rfl := Option.some.inj ht
    exact ⟨h.counter, Or.inl (UInt8.le_iff_toNat_le.mpr (revived_le h.dead)), h.rollover⟩
  · obtain ⟨time, he⟩ := heartbeat_of_not hb
    rw [he] at ht
    obtain rfl := Option.some.inj ht
    exact ⟨h.counter, h.dead, h.rollover⟩

theorem Rotating.send (h : s.Rotating) (ht : s.send inp = some t) : t.Rotating := by
  have hst := ht
  unfold Sender.send at hst
  split at hst
  · rename_i hdefault
    obtain rfl := Option.some.inj hst
    have hroll := h.rollover (by rw [hdefault]; decide)
    unfold readBatch
    split_ifs
    · exact h
    · exact ⟨h.counter, h.dead, fun _ => hroll⟩
  · rename_i hsending
    obtain ⟨u, hu, rfl⟩ := Option.map_eq_some_iff.mp hst
    by_cases hzero : s.channelStates = 0
    · have hzero' : s.passBatch.channelStates = 0 := hzero
      rw [findNextChannel, if_pos hzero'] at hu
      obtain rfl := Option.some.inj hu
      exact ⟨h.counter, h.dead, fun hne => absurd rfl hne⟩
    · obtain ⟨k, hnext, hfind⟩ := findNextChannel_next (s := s.passBatch) h.counter hzero
      rw [hfind] at hu
      obtain rfl := Option.some.inj hu
      exact ⟨Nat.le_of_lt_succ (hnext.lt (by decide)), h.dead, fun hne => absurd rfl hne⟩
  · rename_i hchanging
    obtain rfl := Option.some.inj hst
    unfold changeChannel
    split_ifs
    · exact ⟨h.counter, h.dead, fun _ => rfl⟩
    · unfold countTry
      dsimp only
      split_ifs <;> exact ⟨h.counter, h.dead, fun hne => absurd hchanging hne⟩

theorem Rotating.step (h : s.Rotating) (ht : s.step inp = some t) : t.Rotating := by
  have hservice : (s.radioComTxService inp).interrupt.Rotating := ⟨h.counter, h.dead, h.rollover⟩
  rcases step_cases ht with ⟨-, rfl⟩ | ⟨-, u, v, c, hu, hv, rfl⟩
  · exact ⟨h.counter, h.dead, h.rollover⟩
  · have hsent := (hservice.heartbeat hu).send hv
    exact ⟨hsent.counter, hsent.dead, hsent.rollover⟩

theorem rotating_of_run (hr : Run step (fun _ _ => True) (init param_radio_channel) s) :
    s.Rotating :=
  Run.invariant hr ⟨Nat.zero_le _, Or.inr rfl, fun _ => rfl⟩ fun _ _ _ h _ ht => h.step ht

/-- The timeout clears the bit of the channel that the radio is tuned to and no other, shifting by
0 to 15 places. -/
def BlamesTuned (s t : Sender) : Prop :=
  (∃ i ≤ lastChannelIndex, channelList i = s.com.link.channr ∧
    ∀ j ≤ lastChannelIndex, Live t.channelStates j ↔ Live s.channelStates j ∧ j ≠ i) ∧
  0 ≤ (s.channelCounter : ℤ) - 1 ∧ (s.channelCounter : ℤ) - 1 ≤ 15

/-- The radio is tuned to the channel before that of the counter, which is not channel 0; or to a
channel that is dead like that one. -/
def CounterAhead (s : Sender) : Prop :=
  s.channelCounter ≠ 0 ∧ ∃ i ≤ lastChannelIndex, channelList i = s.com.link.channr ∧
    (i + 1 = s.channelCounter ∨
      ¬ Live s.channelStates i ∧ ¬ Live s.channelStates (s.channelCounter - 1))

theorem blamesTuned_iff (h : s.Rotating)
    (ht : t.channelStates = s.channelStates &&& ~~~bit ((s.channelCounter + 255) % 256)) :
    BlamesTuned s t ↔ s.CounterAhead := by
  have hcounter : s.channelCounter < 16 := Nat.lt_succ_of_le h.counter
  have hshift : 0 ≤ (s.channelCounter : ℤ) - 1 ∧ (s.channelCounter : ℤ) - 1 ≤ 15 ↔
      s.channelCounter ≠ 0 := by omega
  unfold BlamesTuned CounterAhead
  rw [hshift, and_comm, and_congr_right_iff]
  intro hne
  have hplace : (s.channelCounter + 255) % 256 = s.channelCounter - 1 := by omega
  have hdrop : ∀ j ≤ lastChannelIndex, Live t.channelStates j ↔
      Live s.channelStates j ∧ s.channelCounter - 1 ≠ j := fun j hj => by
    rw [ht, hplace]
    exact live_drop hj
  refine exists_congr fun i => and_congr_right fun hi => and_congr_right fun _ => ?_
  constructor
  · intro hclears
    by_cases he : i + 1 = s.channelCounter
    · exact Or.inl he
    · have hpred : s.channelCounter - 1 ≠ i := by omega
      refine Or.inr ⟨fun hlive => ?_, fun hlive => ?_⟩
      · exact ((hclears i hi).mp ((hdrop i hi).mpr ⟨hlive, hpred⟩)).2 rfl
      · have hle := Nat.le_trans (Nat.sub_le s.channelCounter 1) h.counter
        exact ((hdrop _ hle).mp ((hclears _ hle).mpr ⟨hlive, hpred⟩)).2 rfl
  · intro hcases j hj
    rw [hdrop j hj]
    refine and_congr_right fun hlive => ?_
    rcases hcases with he | ⟨hi', hpred⟩
    · have hsame : s.channelCounter - 1 = i := by omega
      rw [hsame]
      exact ne_comm
    · exact iff_of_true (fun he => hpred (he ▸ hlive)) fun he => hi' (he ▸ hlive)

theorem Rotating.timesOut (h : s.Rotating) (hto : s.TimesOut inp)
    (hu : (s.radioComTxService inp).interrupt.heartbeat inp = some u) :
    ∃ v, u.send inp = some v ∧ (BlamesTuned u v ↔ u.CounterAhead) := by
  have hservice : (s.radioComTxService inp).interrupt.Rotating := ⟨h.counter, h.dead, h.rollover⟩
  have hgives : u.GivesUp := by
    obtain ⟨hst, hqueued, htries⟩ := hto.2
    rw [(heartbeat_spec hu).eq]
    exact ⟨hst, hqueued, htries⟩
  exact ⟨_, send_of_givesUp hgives, blamesTuned_iff (hservice.heartbeat hu) rfl⟩

/-- In every reachable state, a timeout blames the right channel if and only if the counter is one
channel ahead of the radio (or both channels concerned are dead already). -/
theorem timeout_blames_tuned_iff
    (hr : Run step (fun _ _ => True) (init param_radio_channel) s) (hto : s.TimesOut inp)
    (hu : (s.radioComTxService inp).interrupt.heartbeat inp = some u) :
    ∃ v, u.send inp = some v ∧ (BlamesTuned u v ↔ u.CounterAhead) :=
  (rotating_of_run hr).timesOut hto hu

/-- The state in which the next iteration will time out, as the heartbeat of that iteration finds
it. -/
def timingOut (s : Sender) : Bool × ℕ × UInt8 × Bool :=
  (decide (s.TimesOut idle), s.channelCounter, (s.radioComTxService idle).interrupt.com.link.channr,
    decide ((s.radioComTxService idle).interrupt.Elapsed idle))

theorem heartbeat_of_timingOut {b : Bool} {k : ℕ} {channr : UInt8}
    (h : s.timingOut = (b, k, channr, false)) :
    (b = true → s.TimesOut idle) ∧ ∃ u, (s.radioComTxService idle).interrupt.heartbeat idle = some u ∧
      u.channelCounter = k ∧ u.com.link.channr = channr := by
  obtain ⟨hto, hk, hchannr, helapsed⟩ : decide (s.TimesOut idle) = b ∧ s.channelCounter = k ∧
      (s.radioComTxService idle).interrupt.com.link.channr = channr ∧
      decide ((s.radioComTxService idle).interrupt.Elapsed idle) = false := by
    simpa only [timingOut, Prod.mk.injEq] using h
  have hwaits : ¬ (s.radioComTxService idle).interrupt.Elapsed idle := of_decide_eq_false helapsed
  obtain ⟨time, hu⟩ := heartbeat_of_not fun hb => hwaits hb.2
  exact ⟨fun hb => of_decide_eq_true (hto.trans hb), _, hu, hk, hchannr⟩

/-- The packet for the first channel is not acknowledged. -/
def unanswered : List Input := ⟨[], true, 0, 0, [7], []⟩ :: List.replicate 255 idle

theorem timeout_blames_first_channel : ∃ s u v,
    Run step (fun _ _ => True) (init 0) s ∧ s.TimesOut idle ∧
      (s.radioComTxService idle).interrupt.heartbeat idle = some u ∧ u.send idle = some v ∧
      BlamesTuned u v := by
  have hrun : (exec step (fun _ _ => True) (init 0) unanswered).map timingOut =
      some (true, 1, 0, false) := by decide +kernel
  obtain ⟨s, hr, hobs⟩ := exists_run_of_exec hrun
  obtain ⟨hto, u, hu, hk, hchannr⟩ := heartbeat_of_timingOut hobs
  obtain ⟨v, hv, hiff⟩ := timeout_blames_tuned_iff hr (hto rfl) hu
  refine ⟨s, u, v, hr, hto rfl, hu, hv, hiff.mpr ⟨?_, 0, Nat.zero_le _, ?_, Or.inl ?_⟩⟩
  · rw [hk]
    decide
  · rw [hchannr]
    rfl
  · rw [hk]

theorem not_blamesTuned {k : ℕ} {channr : UInt8}
    (hr : Run step (fun _ _ => True) (init param_radio_channel) s)
    (h : s.timingOut = (true, k, channr, false))
    (hwrong : k = 0 ∨ ∀ i ≤ lastChannelIndex, channelList i ≠ channr) :
    s.TimesOut idle ∧ ∃ u v, (s.radioComTxService idle).interrupt.heartbeat idle = some u ∧
      u.com.link.channr = channr ∧ u.send idle = some v ∧ ¬ BlamesTuned u v := by
  obtain ⟨hto, u, hu, hk, hchannr⟩ := heartbeat_of_timingOut h
  obtain ⟨v, hv, hiff⟩ := (rotating_of_run hr).timesOut (hto rfl) hu
  refine ⟨hto rfl, u, v, hu, hchannr, hv, fun hblames => ?_⟩
  obtain ⟨hne, i, hi, htuned, -⟩ := hiff.mp hblames
  rcases hwrong with hzero | hlist
  · exact hne (hk.trans hzero)
  · exact hlist i hi (htuned.trans hchannr)

/-- The last channel is never dropped. If the radio starts on another channel than channel 0, channel
0 is dropped when the first batch is not acknowledged, although nothing was sent on it. -/
theorem timeout_blames_wrong_channel :
    (∃ s, Run step (fun _ _ => True) (init 0) s ∧ s.TimesOut idle ∧
      ∃ u v, (s.radioComTxService idle).interrupt.heartbeat idle = some u ∧
        u.com.link.channr = channelList lastChannelIndex ∧ u.send idle = some v ∧
        ¬ BlamesTuned u v) ∧
    ∃ s, Run step (fun _ _ => True) (init 128) s ∧ s.TimesOut idle ∧
      ∃ u v, (s.radioComTxService idle).interrupt.heartbeat idle = some u ∧
        u.com.link.channr = 128 ∧ u.send idle = some v ∧ ¬ BlamesTuned u v := by
  have hlast : (exec step (fun _ _ => True) (init 0)
      ((sendEverywhere [7]).dropLast ++ List.replicate 254 idle)).map timingOut =
      some (true, 0, 255, false) := by decide +kernel
  have hfirst : (exec step (fun _ _ => True) (init 128) unanswered).map timingOut =
      some (true, 1, 128, false) := by decide +kernel
  obtain ⟨s, hr, hobs⟩ := exists_run_of_exec hlast
  obtain ⟨t, hr', hobs'⟩ := exists_run_of_exec hfirst
  exact ⟨⟨s, hr, not_blamesTuned hr hobs (Or.inl rfl)⟩,
    t, hr', not_blamesTuned hr' hobs' (Or.inr (by decide))⟩

/-! ### Runs of heartbeats -/

def heartbeats : Sender → List Input → ℕ
  | _, [] => 0
  | s, inp :: inputs =>
    (if inp.usbPower = true ∧ s.Elapsed inp then 1 else 0) +
      ((s.step inp).elim 0 fun t => t.heartbeats inputs)

/-- The `n` heartbeats since the counter of dead channels was `k`: all channels are live, or at
least the `n` channels after `k` are, and the counter is at the last of these. -/
def Swept (k n : ℕ) (s : Sender) : Prop :=
  (s.deadchannelCounter ≤ 15 ∨ s.deadchannelCounter = 255) ∧
  (s.channelStates = 0xFFFF ∨ ∃ m, n ≤ m ∧ s.deadchannelCounter.toNat % 16 = (k + m) % 16 ∧
    ∀ e, 0 < e → e ≤ m → Live s.channelStates ((k + e) % 16))

theorem Swept.keeps {k n : ℕ} (h : Swept k n s) (ht : KeepsChannels s t) : Swept k n t := by
  unfold Swept at *
  rw [ht.deadchannelCounter, ht.channelStates]
  exact h

/-- Sixteen heartbeats go around the circle. -/
theorem Swept.all_live {k n : ℕ} (h : Swept k n s) (hn : 16 ≤ n) : s.channelStates = 0xFFFF := by
  rcases h.2 with hall | ⟨m, hm, -, hlive⟩
  · exact hall
  · refine eq_all_live fun i hi => ?_
    have hi' : i < 16 := Nat.lt_succ_of_le hi
    obtain ⟨e, hpos, hle, he⟩ : ∃ e, 0 < e ∧ e ≤ 16 ∧ (k + e) % 16 = i :=
      ⟨(i + 15 - k % 16) % 16 + 1, by omega, by omega, by omega⟩
    rw [← he]
    exact hlive e hpos (Nat.le_trans hle (Nat.le_trans hn hm))

/-- The live channels after `k` go on with the next one. -/
theorem live_succ {states : UInt16} {k m : ℕ}
    (h : ∀ e, 0 < e → e ≤ m → Live states ((k + e) % 16)) (hnext : Live states ((k + (m + 1)) % 16)) :
    ∀ e, 0 < e → e ≤ m + 1 → Live states ((k + e) % 16) := by
  intro e hpos hle
  rcases Nat.eq_or_lt_of_le hle with rfl | hlt
  · exact hnext
  · exact h e hpos (Nat.le_of_lt_succ hlt)

/-- A heartbeat makes the next channel live, if it is not live already. -/
theorem Swept.beat {k n : ℕ} (h : Swept k n s)
    (hd : t.deadchannelCounter = s.revived)
    (ht : t.channelStates = s.channelStates ||| bit s.revived.toNat) : Swept k (n + 1) t := by
  have hle := revived_le h.1
  have hmod : s.revived.toNat % 16 = s.revived.toNat := Nat.mod_eq_of_lt (Nat.lt_succ_of_le hle)
  have hkeeps : ∀ i ≤ lastChannelIndex, Live s.channelStates i → Live t.channelStates i :=
    fun i hi hlive => ht ▸ (live_or_bit hi).mpr (Or.inl hlive)
  have hset : Live t.channelStates s.revived.toNat := ht ▸ (live_or_bit hle).mpr (Or.inr rfl)
  refine ⟨Or.inl (hd ▸ UInt8.le_iff_toNat_le.mpr hle), ?_⟩
  rcases h.2 with hall | ⟨m, hm, hplace, hlive⟩
  · left
    have hevery : ∀ i ≤ lastChannelIndex, Live 0xFFFF i := by decide
    exact eq_all_live fun i hi => hkeeps i hi (hall ▸ hevery i hi)
  have hlive' : ∀ e, 0 < e → e ≤ m → Live t.channelStates ((k + e) % 16) := fun e hpos hle =>
    hkeeps _ (Nat.le_of_lt_succ (Nat.mod_lt _ (by decide))) (hlive e hpos hle)
  right
  rcases revived_cases h.1 with ⟨hz, hzero, hone⟩ | ⟨-, he⟩
  · -- the channel 0 is live, and it is skipped
    have hfirst : (k + (m + 1)) % 16 = 0 := by omega
    have hsecond : (k + (m + 2)) % 16 = s.revived.toNat := by
      rw [hone]
      change _ = 1
      omega
    have hskipped : Live t.channelStates ((k + (m + 1)) % 16) :=
      hfirst ▸ hkeeps 0 (Nat.zero_le _) hzero
    exact ⟨m + 2, by omega, by rw [hd, hsecond, hmod],
      live_succ (live_succ hlive' hskipped) (hsecond ▸ hset)⟩
  · have hnext : (k + (m + 1)) % 16 = s.revived.toNat := by omega
    exact ⟨m + 1, by omega, by rw [hd, hnext, hmod], live_succ hlive' (hnext ▸ hset)⟩

theorem Swept.heartbeat {k n : ℕ} (h : Swept k n s) (ht : s.heartbeat inp = some t) :
    Swept k (n + if s.Elapsed inp then 1 else 0) t := by
  by_cases hb : s.channelStates ≠ 0xFFFF ∧ s.Elapsed inp
  · rw [heartbeat_of_elapsed hb.1 hb.2] at ht
    obtain rfl := Option.some.inj ht
    rw [if_pos hb.2]
    exact h.beat rfl rfl
  · obtain ⟨time, he⟩ := heartbeat_of_not hb
    rw [he] at ht
    obtain rfl := Option.some.inj ht
    split_ifs with helapsed
    · exact ⟨h.1, Or.inl (not_not.mp fun hdead => hb ⟨hdead, helapsed⟩)⟩
    · exact h

theorem Swept.step {k n : ℕ} (h : Swept k n s) (hno : ¬ s.TimesOut inp)
    (ht : s.step inp = some t) :
    Swept k (n + if inp.usbPower = true ∧ s.Elapsed inp then 1 else 0) t := by
  rcases step_cases ht with ⟨hpower, rfl⟩ | ⟨hpower, u, v, c, hu, hv, rfl⟩
  · rw [if_neg fun hb => absurd hb.1 (by rw [hpower]; decide)]
    exact h
  · have hquiet : ¬ u.GivesUp := by
      rw [(heartbeat_spec hu).eq]
      exact fun hgives => hno ⟨hpower, hgives⟩
    have hbeat := Swept.heartbeat (s := (s.radioComTxService inp).interrupt) h hu
    have hiff : (inp.usbPower = true ∧ s.Elapsed inp) ↔
        (s.radioComTxService inp).interrupt.Elapsed inp := and_iff_right hpower
    simp only [hiff]
    have hsent := hbeat.keeps (keepsChannels_send hquiet hv)
    exact hsent

theorem Swept.run {k n : ℕ} {inputs : List Input} (h : Swept k n s)
    (hr : exec Sender.step (fun s inp => ¬ s.TimesOut inp) s inputs = some t) :
    Swept k (n + s.heartbeats inputs) t := by
  induction inputs generalizing s n with
  | nil =>
      obtain rfl := Option.some.inj hr
      exact h
  | cons inp inputs ih =>
      rw [exec] at hr
      split_ifs at hr with hno
      obtain ⟨u, hu, hr⟩ := Option.bind_eq_some_iff.mp hr
      have hrest := ih (h.step hno hu) hr
      have hu' : s.step inp = some u := hu
      rw [heartbeats, hu', Option.elim_some, ← Nat.add_assoc]
      exact hrest

/-- An elapsed heartbeat period revives exactly the next dead channel if and only if the search
meets a dead channel where it stops. Sixteen periods without a timeout in between revive all
channels. -/
theorem heartbeat_revives_iff (hd : s.deadchannelCounter ≤ 15 ∨ s.deadchannelCounter = 255) :
    (∀ inp, s.channelStates ≠ 0xFFFF → s.Elapsed inp →
      ∃ t, s.heartbeat inp = some t ∧ (Revives s t ↔ s.MeetsDead)) ∧
    ∀ inputs t, exec step (fun s inp => ¬ s.TimesOut inp) s inputs = some t →
      16 ≤ s.heartbeats inputs → t.channelStates = 0xFFFF := by
  refine ⟨fun inp hdead he => ⟨_, heartbeat_of_elapsed hdead he, revives_iff hd rfl⟩,
    fun inputs t hr hn => ?_⟩
  have hstart : Swept s.deadchannelCounter.toNat 0 s :=
    ⟨hd, Or.inr ⟨0, Nat.le_refl 0, rfl, fun e hpos hle => absurd hpos (Nat.not_lt.mpr hle)⟩⟩
  have hswept := hstart.run hr
  rw [Nat.zero_add] at hswept
  exact hswept.all_live hn

def thirdDead : Sender := { init 0 with channelStates := 0xFFF7 }

def beat (time : UInt32) : Input := ⟨[], true, time, time, [], []⟩

def sixteenBeats : List Input := (List.range 16).map fun i => beat (501 * (UInt32.ofNat i + 1))

/-- The counter of dead channels stands right before channel 3. -/
theorem heartbeat_revives_third :
    (∃ t, { thirdDead with deadchannelCounter := 2 }.heartbeat (beat 501) = some t ∧
      Revives { thirdDead with deadchannelCounter := 2 } t) ∧
    ∃ t, exec step (fun s inp => ¬ s.TimesOut inp) { thirdDead with deadchannelCounter := 2 }
      sixteenBeats = some t ∧ t.channelStates = 0xFFFF := by
  obtain ⟨hbeat, hruns⟩ := heartbeat_revives_iff
    (s := { thirdDead with deadchannelCounter := 2 }) (Or.inl (by decide))
  constructor
  · obtain ⟨t, ht, hiff⟩ := hbeat (beat 501) (by decide) (by decide)
    exact ⟨t, ht, hiff.mpr (by decide)⟩
  · have hrun : (exec step (fun s inp => ¬ s.TimesOut inp)
        { thirdDead with deadchannelCounter := 2 } sixteenBeats).isSome = true := by decide +kernel
    obtain ⟨t, ht⟩ := Option.isSome_iff_exists.mp hrun
    exact ⟨t, ht, hruns _ t ht (by decide +kernel)⟩

/-- The first heartbeat stops at channel 1, which is live. -/
theorem heartbeat_revives_none : ∃ t, thirdDead.heartbeat (beat 501) = some t ∧
    t.channelStates = thirdDead.channelStates ∧ ¬ Revives thirdDead t := by
  have helapsed : thirdDead.Elapsed (beat 501) := by decide
  have ht := heartbeat_of_elapsed (by decide) helapsed
  refine ⟨_, ht, by decide, fun hrevives => ?_⟩
  exact absurd ((revives_iff (Or.inr rfl) rfl).mp hrevives) (by decide)

end WixelSdk.Multichannel.Sender
