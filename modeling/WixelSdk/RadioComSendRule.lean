import WixelSdk.RadioComTx

/-!
# The documented rule for sending bytes

After a value of `radioComTxAvailable`, as many calls of `radioComTxSendByte` are allowed. That is
too many if `radioComTxService` or `radioComTxControlSignals` come in between and spend a buffer on
control signals or on a packet that is not full. `leeway` takes such calls into account: it is never
more than what they leave, and the bytes within it always find a buffer.
-/

namespace WixelSdk.RadioCom
open RadioMac RadioLink Transition

namespace Com

variable {c d : Com}

/-- Control signals will be sent as soon as possible. -/
def Urgent (c : Com) : Prop :=
  c.link.radioLinkResetPacketReceived = true ∨ c.sendSignalsSoon = true

instance (c : Com) : Decidable c.Urgent := by unfold Urgent; infer_instance

def underConstruction (c : Com) : ℕ := if c.txBytesLoaded ≠ 0 then 1 else 0

/-- The number of packets that `radioComTxService` may queue. -/
def mayQueue (c : Com) : ℕ :=
  if c.Urgent then c.underConstruction + 1
  else if c.link.radioLinkTxQueued ≤ txQueueThreshold then c.underConstruction else 0

theorem queued_le (c : Com) : c.link.radioLinkTxQueued ≤ 15 := by
  have hsum := c.link.radioLinkTxAvailable_add_queued
  omega

theorem noticeReset_sendSignalsSoon (c : Com) : c.noticeReset.sendSignalsSoon = true ↔ c.Urgent := by
  unfold noticeReset Urgent
  split_ifs with hf
  · simp [hf]
  · simp only [Bool.not_eq_true] at hf
    simp only [hf, Bool.false_eq_true, false_or]
    rfl

theorem flushData_spec (h : Building c) : Building c.flushData ∧
    c.flushData.link.radioLinkTxQueued ≤ c.link.radioLinkTxQueued + c.underConstruction := by
  unfold flushData underConstruction
  split_ifs with hl
  · have hq := queues_radioComSendDataNow (h.packet hl) hl
    have hb : Building c.radioComSendDataNow := h.queues hq rfl
    have hi := still_interrupt hb.serviceable
    exact ⟨hb.still hi, Nat.le_trans hi.link.queued hq.queued⟩
  · exact ⟨h, Nat.le_refl _⟩

/-- The control signals, and before them the packet under construction. -/
theorem radioComTxService_of_urgent (h : Building c) (hu : c.Urgent) :
    c.radioComTxService.txBytesLoaded = 0 ∧
      c.radioComTxService.link.radioLinkTxQueued ≤ c.link.radioLinkTxQueued + c.mayQueue := by
  have hstill := still_noticeReset h.serviceable
  obtain ⟨hflush, hqueued⟩ := flushData_spec (h.still hstill)
  have hempty := flushData_txBytesLoaded c.noticeReset
  have hle := hstill.link.queued
  have hsame : c.noticeReset.underConstruction = c.underConstruction := by
    unfold underConstruction
    rw [hstill.txBytesLoaded]
  rw [hsame] at hqueued
  unfold Com.radioComTxService mayQueue
  rw [if_pos (c.noticeReset_sendSignalsSoon.mpr hu), if_pos hu]
  split_ifs with havail
  · have hi := still_interrupt hflush.serviceable
    have hsum := c.noticeReset.flushData.link.radioLinkTxAvailable_add_queued
    have hlt : c.noticeReset.flushData.interrupt.link.radioLinkTxQueued < 15 :=
      Nat.lt_of_le_of_lt hi.link.queued (by omega)
    have hq := queues_radioComSendControlSignalsNow hi.serviceable hlt
    refine ⟨(radioComSendControlSignalsNow_txBytesLoaded _).trans (hi.txBytesLoaded.trans hempty), ?_⟩
    have hlast := Nat.le_trans hq.queued (Nat.succ_le_succ hi.link.queued)
    omega
  · exact ⟨hempty, by omega⟩

/-- At most the packet under construction. -/
theorem radioComTxService_of_not_urgent (h : Building c) (hu : ¬ c.Urgent) :
    (c.radioComTxService.txBytesLoaded = c.txBytesLoaded ∧
      c.radioComTxService.link.radioLinkTxQueued ≤ c.link.radioLinkTxQueued) ∨
    (c.txBytesLoaded ≠ 0 ∧ c.radioComTxService.txBytesLoaded = 0 ∧
      c.radioComTxService.link.radioLinkTxQueued ≤ c.link.radioLinkTxQueued + c.mayQueue) := by
  have hstill := still_noticeReset h.serviceable
  have hle := hstill.link.queued
  unfold Com.radioComTxService
  rw [if_neg (fun hs => hu (c.noticeReset_sendSignalsSoon.mp hs))]
  split_ifs with hl
  · have hi := still_interrupt hstill.serviceable
    have hopen := (((h.still hstill).packet hl.1).still hi)
    have hne : c.noticeReset.interrupt.txBytesLoaded ≠ 0 := hl.1
    have hq := queues_radioComSendDataNow hopen hne
    have hqueued := Nat.le_trans hq.queued (Nat.succ_le_succ hi.link.queued)
    rw [hstill.txBytesLoaded] at hl
    refine Or.inr ⟨hl.1, rfl, ?_⟩
    -- an acknowledgement that brings the queue down to the threshold makes up for the packet
    have hone : c.underConstruction = 1 := if_pos hl.1
    have hthreshold : c.noticeReset.link.radioLinkTxQueued ≤ 1 := hl.2
    rw [mayQueue, if_neg hu, hone]
    by_cases hm : c.link.radioLinkTxQueued ≤ txQueueThreshold
    · rw [if_pos hm]
      omega
    · have hlong : ¬ c.link.radioLinkTxQueued ≤ 1 := hm
      rw [if_neg hm]
      omega
  · exact Or.inl ⟨hstill.txBytesLoaded, hle⟩

/-- How many more bytes the free buffers hold. -/
def Holds (c : Com) (k : ℕ) : Prop :=
  k + c.txBytesLoaded.toNat + payloadSize * c.link.radioLinkTxQueued ≤ payloadSize * 15

def room (c : Com) : ℕ := payloadSize * (c.link.radioLinkTxAvailable - c.mayQueue)

theorem Holds.still {k : ℕ} (h : Holds c k) (h' : Still c d) : Holds d k := by
  have hqueued := h'.link.queued
  unfold Holds at *
  rw [h'.txBytesLoaded]
  simp only [payloadSize] at *
  omega

theorem Holds.mono {k l : ℕ} (h : Holds c k) (hl : l ≤ k) : Holds c l := by
  unfold Holds at *
  omega

theorem Holds.radioComTxService {k : ℕ} (h : Holds c k) (hb : Building c) (hroom : k ≤ c.room) :
    Holds c.radioComTxService k := by
  have hmost := c.radioComTxService.queued_le
  have hsum := c.link.radioLinkTxAvailable_add_queued
  unfold Holds room at *
  simp only [payloadSize] at *
  have hspent : c.radioComTxService.txBytesLoaded = 0 →
      c.radioComTxService.link.radioLinkTxQueued ≤ c.link.radioLinkTxQueued + c.mayQueue →
      k + c.radioComTxService.txBytesLoaded.toNat +
        18 * c.radioComTxService.link.radioLinkTxQueued ≤ 18 * 15 := by
    intro hl hq
    rw [hl, UInt8.toNat_zero]
    omega
  by_cases hu : c.Urgent
  · obtain ⟨hl, hq⟩ := radioComTxService_of_urgent hb hu
    exact hspent hl hq
  · rcases radioComTxService_of_not_urgent hb hu with ⟨hl, hq⟩ | ⟨-, hl, hq⟩
    · rw [hl]
      omega
    · exact hspent hl hq

/-- What the calls leave of the room for `k` bytes. -/
theorem Holds.service {k : ℕ} (h : Holds c k) (hb : Building c) :
    Holds c.radioComTxService (min k c.room) :=
  (h.mono (Nat.min_le_left _ _)).radioComTxService hb (Nat.min_le_right _ _)

theorem Holds.controlSignals {k : ℕ} (h : Holds c k) (hb : Building c) (v : UInt8) :
    Holds (c.radioComTxControlSignals v)
      (if v ≠ c.radioComTxSignals then min k (c.requestSignals v).room else k) := by
  unfold Com.radioComTxControlSignals
  split_ifs
  · exact Holds.service (c := c.requestSignals v) h (hb.requestSignals v)
  · exact h

/-- With room for one byte, there is a free buffer or a packet under construction. -/
theorem Holds.room {k : ℕ} (h : Holds c (k + 1)) :
    c.txBytesLoaded ≠ 0 ∨ c.link.radioLinkTxQueued < 15 := by
  unfold Holds at h
  simp only [payloadSize] at h
  exact Or.inr (by omega)

theorem Holds.radioComTxSendByte {k : ℕ} (h : Holds c (k + 1)) (hb : Building c) (byte : UInt8) :
    Holds (c.radioComTxSendByte byte) k := by
  obtain ⟨-, -, ⟨hl, -, -, -, hq⟩ | ⟨hfull, hl, hq⟩⟩ := radioComTxSendByte_cases hb h.room byte
  · unfold Holds at *
    simp only [payloadSize] at *
    omega
  · have hqueued := hq.queued
    unfold Holds at *
    rw [hl, UInt8.toNat_zero]
    simp only [payloadSize] at *
    omega

/-- Reduction modulo 256 only makes the value of `radioComTxAvailable` smaller. -/
theorem holds_radioComTxAvailable (h : Building c) : Holds c c.radioComTxAvailable.toNat := by
  have hsum := c.link.radioLinkTxAvailable_add_queued
  have hshort := h.short
  have hpacket : c.txBytesLoaded.toNat ≤ payloadSize * c.link.radioLinkTxAvailable := by
    by_cases hl : c.txBytesLoaded = 0
    · rw [hl]
      exact Nat.zero_le _
    · have hfree := (h.packet hl).free
      simp only [payloadSize] at *
      omega
  have hle : c.radioComTxAvailable.toNat + c.txBytesLoaded.toNat ≤
      payloadSize * c.link.radioLinkTxAvailable := by
    unfold radioComTxAvailable
    split_ifs
    · rw [UInt8.toNat_zero, Nat.zero_add]
      exact hpacket
    · have hsize : radioLinkPayloadSize.toNat = 18 := rfl
      simp only [UInt8.toNat_sub, UInt8.toNat_mul, UInt8.toNat_ofNat', hsize, payloadSize] at *
      omega
  unfold Holds
  simp only [payloadSize] at *
  omega

end Com

namespace Host

variable {h t : Host} {a : HostAction}

/-- The rule of `radio_com.h`. -/
def SendRule (h : Host) : HostAction → Prop
  | .txSendByte _ _ => 1 ≤ txAllowance h.log
  | _ => True

instance (h : Host) (a : HostAction) : Decidable (SendRule h a) := by
  rcases a with ⟨⟩ <;> dsimp only [SendRule] <;> infer_instance

end Host

/-- The main loop with a count of the bytes that it may still send. -/
structure Metered where
  host : Host
  leeway : ℕ

namespace Metered

/-- The value of `radioComTxAvailable`, less the bytes sent since then, and at most what each call
that may queue a packet has left. -/
def nextLeeway (m : Metered) : HostAction → ℕ
  | .txAvailable => m.host.com.radioComTxAvailable.toNat
  | .txSendByte _ _ => m.leeway - 1
  | .txService _ => min m.leeway m.host.com.room
  | .txControlSignals v _ =>
      if v ≠ m.host.com.radioComTxSignals then min m.leeway (m.host.com.requestSignals v).room
      else m.leeway
  | _ => m.leeway

def init (enforce : Bool) (channel : UInt8) : Metered := ⟨.init enforce channel, 0⟩

def step (m : Metered) (a : HostAction) : Option Metered :=
  (m.host.step a).map fun t => ⟨t, m.nextLeeway a⟩

/-- The rule of `radio_com.h`, and within the leeway. -/
def SendRule (m : Metered) (a : HostAction) : Prop :=
  m.host.SendRule a ∧ match a with
    | .txSendByte _ _ => 1 ≤ m.leeway
    | _ => True

instance (m : Metered) (a : HostAction) : Decidable (m.SendRule a) := by
  rcases a with ⟨⟩ <;> dsimp only [SendRule] <;> infer_instance

structure Promised (m : Metered) : Prop where
  building : Com.Building m.host.com
  holds : Com.Holds m.host.com m.leeway

variable {m n : Metered} {a : HostAction}

theorem Promised.step (hp : Promised m) (ha : m.SendRule a) (ht : m.step a = some n) :
    Promised n := by
  obtain ⟨t, hst, rfl⟩ := Option.map_eq_some_iff.mp ht
  have hs := hp.building.serviceable
  have hsched : ∀ is, Com.Still m.host.com (m.host.com.schedule is) := Com.still_schedule hs
  have hbuild : ∀ is, Com.Building (m.host.com.schedule is) := fun is =>
    hp.building.still (hsched is)
  have hholds : ∀ is, Com.Holds (m.host.com.schedule is) m.leeway := fun is =>
    hp.holds.still (hsched is)
  have hstill : ¬ a.Transmits → Com.Building t.com ∧ Com.Holds t.com m.leeway := fun hna =>
    ⟨hp.building.still (Host.still_step hs hna hst), hp.holds.still (Host.still_step hs hna hst)⟩
  cases a with
  | txService is =>
      obtain rfl := Option.some.inj hst
      exact ⟨Com.txRule_building.radioComTxService (hbuild is), (hholds is).service (hbuild is)⟩
  | txAvailable =>
      obtain rfl := Option.some.inj hst
      exact ⟨hp.building, Com.holds_radioComTxAvailable hp.building⟩
  | txSendByte byte is =>
      obtain rfl := Option.some.inj hst
      have hone : Com.Holds (m.host.com.schedule is) (m.leeway - 1 + 1) := by
        rw [Nat.sub_add_cancel ha.2]
        exact hholds is
      exact ⟨(hbuild is).radioComTxSendByte hone.room byte,
        hone.radioComTxSendByte (hbuild is) byte⟩
  | txControlSignals v is =>
      obtain rfl := Option.some.inj hst
      exact ⟨(hbuild is).radioComTxControlSignals v, (hholds is).controlSignals (hbuild is) v⟩
  | interrupts is => exact ⟨(hstill id).1, (hstill id).2⟩
  | rxAvailable is => exact ⟨(hstill id).1, (hstill id).2⟩
  | rxReceiveByte is => exact ⟨(hstill id).1, (hstill id).2⟩
  | rxControlSignals is => exact ⟨(hstill id).1, (hstill id).2⟩
  | changeChannel channel => exact ⟨(hstill id).1, (hstill id).2⟩

theorem promised_init (enforce : Bool) (channel : UInt8) : Promised (init enforce channel) where
  building := Com.building_init enforce channel
  holds := by
    have hmost := (init enforce channel).host.com.queued_le
    change 0 + 0 + payloadSize * _ ≤ payloadSize * 15
    simp only [payloadSize]
    omega

/-- Within the leeway the rule keeps what it promises: a packet is started in a free buffer, and
queueing a packet never makes the queue shorter. -/
theorem bytes_within_leeway_find_a_buffer {enforce : Bool} {channel : UInt8}
    (hr : Run step SendRule (init enforce channel) m) :
    (∀ b a p, .queued b a p ∈ m.host.com.link.history → b < 15 ∧ a = b + 1) ∧
    (m.host.com.txBytesLoaded ≠ 0 → m.host.com.link.radioLinkTxAvailable ≠ 0) ∧
    ∀ byte is, m.SendRule (.txSendByte byte is) → m.host.com.txBytesLoaded = 0 →
      m.host.com.link.radioLinkTxCurrentPacket ≠ none := by
  have hp : Promised m := Run.invariant hr (promised_init enforce channel)
    fun _ _ _ hp ha ht => hp.step ha ht
  have hsum := m.host.com.link.radioLinkTxAvailable_add_queued
  refine ⟨fun b a p hmem => ?_, fun hl => ?_, fun byte is ha hl => ?_⟩
  · obtain ⟨hb, he, -⟩ := hp.building.orderly b a p hmem
    exact ⟨hb, he⟩
  · have hfree := (hp.building.packet hl).free
    omega
  · have hone : Com.Holds m.host.com (m.leeway - 1 + 1) := by
      rw [Nat.sub_add_cancel ha.2]
      exact hp.holds
    have hfree := hone.room.resolve_left (fun hne => hne hl)
    have havail : m.host.com.link.radioLinkTxAvailable ≠ 0 := by omega
    simp [Node.radioLinkTxCurrentPacket, havail]

theorem bytes_around_signals_find_a_buffer : ∃ m : Metered,
    m.host.com.link.sent = [⟨0, [1]⟩, ⟨1, [3]⟩] ∧ m.host.com.txBytesLoaded = 1 ∧
    (∀ b a p, .queued b a p ∈ m.host.com.link.history → b < 15 ∧ a = b + 1) ∧
    (m.host.com.txBytesLoaded ≠ 0 → m.host.com.link.radioLinkTxAvailable ≠ 0) ∧
    ∀ byte is, m.SendRule (.txSendByte byte is) → m.host.com.txBytesLoaded = 0 →
      m.host.com.link.radioLinkTxCurrentPacket ≠ none := by
  have hrun : (exec step SendRule (init false 128)
      [.txAvailable, .txSendByte 1 [], .txControlSignals 3 [], .txSendByte 2 []]).map
      (fun m => (m.host.com.link.sent, m.host.com.txBytesLoaded)) =
      some ([⟨0, [1]⟩, ⟨1, [3]⟩], 1) := by decide +kernel
  obtain ⟨m, hr, hobs⟩ := exists_run_of_exec hrun
  obtain ⟨hsent, hloaded⟩ := Prod.mk.inj hobs
  exact ⟨m, hsent, hloaded, bytes_within_leeway_find_a_buffer hr⟩

end Metered

namespace Host

/-- Fourteen packets with control signals leave one free buffer; a byte goes there, and new signals
then take the buffer for its packet while 17 bytes are still allowed. -/
def spendLastBuffer : List HostAction :=
  (List.range 14).map (fun i => .txControlSignals (UInt8.ofNat (i + 1)) []) ++
    [.txAvailable, .txSendByte 1 [], .txControlSignals 0 []]

/-- Under the rule of `radio_com.h` alone, a packet is started without a buffer, and queueing it makes
the link forget the fifteen queued packets. -/
theorem queued_packets_forgotten : ∃ h t : Host,
    (Run step SendRule (init false 128) h ∧ SendRule h (.txSendByte 2 []) ∧
      h.com.txBytesLoaded = 0 ∧ h.com.link.radioLinkTxCurrentPacket = none) ∧
    Run step SendRule (init false 128) t ∧ ∃ p, .queued 15 0 p ∈ t.com.link.history := by
  have hrun : (exec step SendRule (init false 128) spendLastBuffer).map
      (fun h => (h.com.txBytesLoaded, h.com.link.radioLinkTxCurrentPacket,
        decide (SendRule h (.txSendByte 2 [])))) = some (0, none, true) := by decide +kernel
  have hrun' : (exec step SendRule (init false 128)
      (spendLastBuffer ++ [.txSendByte 2 [], .txService []])).map
      (fun h => h.com.link.history[15]?) = some (some (.queued 15 0 ⟨0, []⟩)) := by
    decide +kernel
  obtain ⟨h, hr, hobs⟩ := exists_run_of_exec hrun
  obtain ⟨t, hr', hobs'⟩ := exists_run_of_exec hrun'
  obtain ⟨hloaded, hrest⟩ := Prod.mk.inj hobs
  obtain ⟨hnull, hrule⟩ := Prod.mk.inj hrest
  exact ⟨h, t, ⟨hr, of_decide_eq_true hrule, hloaded, hnull⟩, hr', _, List.mem_of_getElem? hobs'⟩

end Host
end WixelSdk.RadioCom
