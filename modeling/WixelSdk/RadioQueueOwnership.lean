import WixelSdk.RadioQueueStation

/-!
# Who owns the packet buffers of the radio queue

`Consistent` says which buffer the DMA channel uses: the interrupt's RX buffer while the radio
listens, and the first queued packet while it transmits. Every branch of the handler establishes
this anew. `radioMacEvent_eq` is all that the handler does to the rings: it advances the TX index
when a packet has been sent and the RX index when one is accepted, and touches no packet.
-/

namespace WixelSdk.RadioQueue
open RadioMac
open RadioLink (Buf dmaStore)

namespace Queue

structure InRange (q : Queue) : Prop where
  rxMain : q.radioQueueRxMainLoopIndex < rxPacketCount
  rxInterrupt : q.radioQueueRxInterruptIndex < rxPacketCount
  txMain : q.radioQueueTxMainLoopIndex < txPacketCount
  txInterrupt : q.radioQueueTxInterruptIndex < txPacketCount
  pktlen : q.mac.pktlen = maxPacketSize

def ArmedRx (q : Queue) : Prop := q.mac.radioMacState = .rx → q.mac.dma =
  some ⟨.rfd, .packet (.radioQueueRxPacket q.radioQueueRxInterruptIndex), maxPacketSize + 3, 3⟩

def ArmedTx (q : Queue) : Prop := q.mac.radioMacState = .tx →
  q.mac.dma = some ⟨.packet (.radioQueueTxPacket q.radioQueueTxInterruptIndex), .rfd,
    maxPacketSize + 1, 1⟩ ∧ q.radioQueueTxInterruptIndex ≠ q.radioQueueTxMainLoopIndex

structure Consistent (q : Queue) : Prop extends q.InRange where
  rx : q.ArmedRx
  tx : q.ArmedTx

/-- A frame whose CRC does not matter or is good, with data, that leaves a buffer free. -/
def Accepts (q : Queue) (r : Readings) : Prop :=
  (r.crcPassed = true ∨ q.radioQueueAllowCrcErrors = true) ∧
    q.radioQueueRxPacket q.radioQueueRxInterruptIndex 0 > 0 ∧
    Ring.next rxPacketCount q.radioQueueRxInterruptIndex ≠ q.radioQueueRxMainLoopIndex

instance (q : Queue) (r : Readings) : Decidable (q.Accepts r) :=
  inferInstanceAs (Decidable (_ ∧ _ ∧ _))

variable {q : Queue}

theorem radioQueueTxAvailable_add_queued (q : Queue) :
    q.radioQueueTxAvailable + q.radioQueueTxQueued = 15 := by
  simp only [radioQueueTxAvailable, radioQueueTxQueued, txPacketCount]
  omega

theorem radioQueueTxQueued_eq_count (h : q.InRange) : q.radioQueueTxQueued =
    Ring.count txPacketCount q.radioQueueTxInterruptIndex q.radioQueueTxMainLoopIndex := by
  have hm := h.txMain
  have hi := h.txInterrupt
  simp only [radioQueueTxQueued, Ring.count, txPacketCount] at *
  split_ifs <;> omega

theorem next_ne_of_radioQueueTxCurrentPacket (h : q.InRange)
    (hfree : q.radioQueueTxCurrentPacket ≠ none) :
    Ring.next txPacketCount q.radioQueueTxMainLoopIndex ≠ q.radioQueueTxInterruptIndex := by
  intro hfull
  have hcount := (Ring.next_eq_iff_count (by decide) h.txInterrupt h.txMain).mp hfull
  have hsum := q.radioQueueTxAvailable_add_queued
  rw [radioQueueTxQueued_eq_count h, hcount] at hsum
  have hav : q.radioQueueTxAvailable = 0 := by
    simp only [txPacketCount] at hsum
    omega
  exact hfree (if_pos hav)

theorem radioQueueRxCurrentPacket_ne_none : q.radioQueueRxCurrentPacket ≠ none ↔
    q.radioQueueRxMainLoopIndex ≠ q.radioQueueRxInterruptIndex := by
  simp [radioQueueRxCurrentPacket]

theorem rxOwned_lt_two (h : q.InRange) : q.rxOwned < 2 ↔
    Ring.next rxPacketCount q.radioQueueRxInterruptIndex ≠ q.radioQueueRxMainLoopIndex := by
  have hnext := Ring.next_eq_iff_count (by decide) h.rxMain h.rxInterrupt
  have hlt := Ring.count_lt h.rxMain h.rxInterrupt
  unfold rxOwned
  rw [ne_eq, hnext]
  simp only [rxPacketCount] at *
  omega

/-! ### The handler -/

theorem takeInitiative_eq (q : Queue) : ∃ m, q.takeInitiative = { q with mac := m } := by
  unfold takeInitiative
  split_ifs
  · exact ⟨_, rfl⟩
  · exact ⟨_, rfl⟩

theorem handleBadCrc_eq (q : Queue) (random : UInt8) :
    ∃ m, q.handleBadCrc random = { q with mac := m } := by
  unfold handleBadCrc
  split_ifs
  · exact ⟨_, rfl⟩
  · exact ⟨_, rfl⟩

theorem handleRx_eq (q : Queue) (r : Readings) : ∃ m, q.handleRx r =
    { q with
      mac := m
      radioQueueRxInterruptIndex := if q.Accepts r then
        Ring.next rxPacketCount q.radioQueueRxInterruptIndex
        else q.radioQueueRxInterruptIndex } := by
  by_cases hcrc : q.radioQueueAllowCrcErrors = false ∧ r.crcPassed = false
  · obtain ⟨m, hm⟩ := q.handleBadCrc_eq r.random
    have hna : ¬ q.Accepts r := by
      rintro ⟨hgood, -⟩
      simp [hcrc.1, hcrc.2] at hgood
    refine ⟨m, ?_⟩
    rw [handleRx, if_pos hcrc, hm, if_neg hna]
  · obtain ⟨m, hm⟩ := q.offerPacket.takeInitiative_eq
    have hgood : r.crcPassed = true ∨ q.radioQueueAllowCrcErrors = true := by
      by_contra hbad
      simp only [not_or, Bool.not_eq_true] at hbad
      exact hcrc hbad.symm
    refine ⟨m, ?_⟩
    rw [handleRx, if_neg hcrc, hm]
    simp only [Accepts, hgood, true_and, offerPacket]
    split_ifs <;> rfl

/-- All that an event does to the queue. -/
theorem radioMacEvent_eq (q : Queue) (r : Readings) (e : MacEvent) : ∃ m, q.radioMacEvent r e =
    { q with
      mac := m
      radioQueueTxInterruptIndex := if e = .tx then
        Ring.next txPacketCount q.radioQueueTxInterruptIndex else q.radioQueueTxInterruptIndex
      radioQueueRxInterruptIndex := if e = .rx ∧ q.Accepts r then
        Ring.next rxPacketCount q.radioQueueRxInterruptIndex
        else q.radioQueueRxInterruptIndex } := by
  have hevent : q.radioMacEvent r e = client.setMac
      (radioMacEventHandler r e q.beforeHandler).mac.afterHandler
      (radioMacEventHandler r e q.beforeHandler) := rfl
  rw [hevent]
  cases e with
  | tx => exact ⟨_, rfl⟩
  | rx =>
      obtain ⟨m, hm⟩ := q.beforeHandler.handleRx_eq r
      refine ⟨m.afterHandler, ?_⟩
      simp only [radioMacEventHandler, hm, true_and]
      rfl
  | rxTimeout =>
      obtain ⟨m, hm⟩ := q.beforeHandler.takeInitiative_eq
      refine ⟨m.afterHandler, ?_⟩
      simp only [radioMacEventHandler, hm]
      rfl
  | strobe =>
      obtain ⟨m, hm⟩ := q.beforeHandler.takeInitiative_eq
      refine ⟨m.afterHandler, ?_⟩
      simp only [radioMacEventHandler, hm]
      rfl

theorem consistent_radioMacRx (h : q.InRange) (timeout : ℕ) :
    (q.radioMacRx (.radioQueueRxPacket q.radioQueueRxInterruptIndex) timeout).Consistent where
  toInRange := ⟨h.rxMain, h.rxInterrupt, h.txMain, h.txInterrupt, h.pktlen⟩
  rx _ := by simp [radioMacRx, Mac.radioMacRx, h.pktlen, maxPacketSize]
  tx hc := by cases hc

theorem consistent_takeInitiative (h : q.InRange) : q.takeInitiative.Consistent := by
  unfold takeInitiative
  split_ifs with hne
  · refine ⟨⟨h.rxMain, h.rxInterrupt, h.txMain, h.txInterrupt, h.pktlen⟩, ?_, ?_⟩
    · intro hc
      cases hc
    · intro _
      exact ⟨by simp [radioMacTx, Mac.radioMacTx, h.pktlen, maxPacketSize], hne⟩
  · exact consistent_radioMacRx h 0

theorem InRange.offerPacket (h : q.InRange) : q.offerPacket.InRange := by
  unfold Queue.offerPacket
  split_ifs
  · exact ⟨h.rxMain, Ring.next_lt h.rxInterrupt, h.txMain, h.txInterrupt, h.pktlen⟩
  · exact h

theorem consistent_handleRx (h : q.InRange) (r : Readings) : (q.handleRx r).Consistent := by
  unfold handleRx handleBadCrc
  split_ifs
  · exact consistent_radioMacRx h _
  · exact consistent_radioMacRx h _
  · exact consistent_takeInitiative h.offerPacket

theorem consistent_handleTx (h : q.InRange) (random : UInt8) :
    (q.handleTx random).Consistent :=
  consistent_radioMacRx (q := { q with
    radioQueueTxInterruptIndex := Ring.next txPacketCount q.radioQueueTxInterruptIndex })
    ⟨h.rxMain, h.rxInterrupt, h.txMain, Ring.next_lt h.txInterrupt, h.pktlen⟩ _

theorem consistent_radioMacEvent (h : q.InRange) (r : Readings) (e : MacEvent) :
    (q.radioMacEvent r e).Consistent := by
  have hb : q.beforeHandler.InRange :=
    ⟨h.rxMain, h.rxInterrupt, h.txMain, h.txInterrupt, h.pktlen⟩
  have hc : (radioMacEventHandler r e q.beforeHandler).Consistent := by
    cases e with
    | tx => exact consistent_handleTx hb _
    | rx => exact consistent_handleRx hb _
    | rxTimeout => exact consistent_takeInitiative hb
    | strobe => exact consistent_takeInitiative hb
  exact ⟨⟨hc.rxMain, hc.rxInterrupt, hc.txMain, hc.txInterrupt, hc.pktlen⟩, hc.rx, hc.tx⟩

theorem Consistent.transmitting_eq (h : q.Consistent) : q.transmitting =
    if q.mac.radioMacState = .tx then some (.radioQueueTxPacket q.radioQueueTxInterruptIndex)
    else none := by
  unfold Queue.transmitting
  split_ifs with hst
  · rw [hst, (h.tx hst).1]
  · split
    · rename_i hst' _
      exact absurd hst' hst
    · rfl

theorem Consistent.receiving_eq (h : q.Consistent) (hst : q.mac.radioMacState = .rx) :
    q.receiving = some (.radioQueueRxPacket q.radioQueueRxInterruptIndex) := by
  unfold Queue.receiving
  rw [hst, h.rx hst]

/-! ### The main loop and the DMA channel -/

theorem Consistent.call (h : q.Consistent) {c : Call} (hd : q.Documented c) :
    (q.call c).Consistent := by
  cases c with
  | storeTx offset b =>
      exact ⟨⟨h.rxMain, h.rxInterrupt, h.txMain, h.txInterrupt, h.pktlen⟩, h.rx, h.tx⟩
  | sendPacket =>
      have hnext := next_ne_of_radioQueueTxCurrentPacket h.toInRange hd
      refine ⟨⟨h.rxMain, h.rxInterrupt, Ring.next_lt h.txMain, h.txInterrupt, h.pktlen⟩, h.rx, ?_⟩
      intro hst
      exact ⟨(h.tx hst).1, hnext.symm⟩
  | strobe =>
      exact ⟨⟨h.rxMain, h.rxInterrupt, h.txMain, h.txInterrupt, h.pktlen⟩, h.rx, h.tx⟩
  | rxDone =>
      exact ⟨⟨Ring.next_lt h.rxMain, h.rxInterrupt, h.txMain, h.txInterrupt, h.pktlen⟩, h.rx, h.tx⟩
  | allowCrcErrors allow =>
      exact ⟨⟨h.rxMain, h.rxInterrupt, h.txMain, h.txInterrupt, h.pktlen⟩, h.rx, h.tx⟩

theorem Consistent.dmaReceive_eq (h : q.Consistent) (bytes : List UInt8) : ∃ buf,
    q.dmaReceive bytes = { q with
      radioQueueRxPacket :=
        Function.update q.radioQueueRxPacket q.radioQueueRxInterruptIndex buf } := by
  unfold Queue.dmaReceive
  split
  · rename_i p lenl vlen hst hdma
    have harmed := h.rx hst
    rw [hdma] at harmed
    simp only [Option.some.injEq, RadioDma.mk.injEq, DmaAddress.packet.injEq] at harmed
    obtain ⟨-, rfl, rfl, -⟩ := harmed
    exact ⟨_, rfl⟩
  · exact ⟨q.radioQueueRxPacket q.radioQueueRxInterruptIndex, by rw [Function.update_eq_self]⟩

theorem Consistent.dmaReceive (h : q.Consistent) (bytes : List UInt8) :
    (q.dmaReceive bytes).Consistent := by
  obtain ⟨buf, he⟩ := h.dmaReceive_eq bytes
  rw [he]
  exact ⟨⟨h.rxMain, h.rxInterrupt, h.txMain, h.txInterrupt, h.pktlen⟩, h.rx, h.tx⟩

theorem Consistent.reportErrors (h : q.Consistent) (f : RfReadings) :
    (client.reportErrors f q).Consistent :=
  ⟨⟨h.rxMain, h.rxInterrupt, h.txMain, h.txInterrupt, h.pktlen⟩, h.rx, h.tx⟩

theorem consistent_radioQueueInit (channel : UInt8) :
    (powerUp.radioQueueInit channel).Consistent where
  toInRange := ⟨Nat.succ_pos 2, Nat.succ_pos 2, Nat.succ_pos 15, Nat.succ_pos 15, rfl⟩
  rx hc := by cases hc
  tx hc := by cases hc

end Queue
end WixelSdk.RadioQueue
