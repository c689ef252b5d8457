import WixelSdk.RadioLinkStation
import Mathlib.Tactic.SplitIfs

/-!
# Who owns the packet buffers

The two rings are shared by the main loop, the interrupt and the DMA channel. `InRange` bounds the
four indices; `ArmedRx` and `ArmedTx` say which buffer the DMA channel uses. Between two events all
hold, and the handler establishes the last two anew whatever they were before, because each of its
branches ends by choosing the next radio mode.
-/

namespace WixelSdk.RadioLink
open RadioMac StopAndWait Transition

namespace Node

structure InRange (n : Node) : Prop where
  rxMain : n.radioLinkRxMainLoopIndex < rxPacketCount
  rxInterrupt : n.radioLinkRxInterruptIndex < rxPacketCount
  txMain : n.radioLinkTxMainLoopIndex < txPacketCount
  txInterrupt : n.radioLinkTxInterruptIndex < txPacketCount
  pktlen : n.mac.pktlen = maxPacketSize

/-- The DMA channel receives into the interrupt's RX buffer. -/
def ArmedRx (n : Node) : Prop := n.mac.radioMacState = .rx → n.mac.dma =
  some ⟨.rfd, .packet (.radioLinkRxPacket n.radioLinkRxInterruptIndex), maxPacketSize + 3, 3⟩

/-- The DMA channel transmits either a frame without data or the first queued packet, and its buffer
still holds what `radioMacTx` was handed. -/
def ArmedTx (n : Node) : Prop := n.mac.radioMacState = .tx →
  (n.mac.dma = some ⟨.packet .shortTxPacket, .rfd, maxPacketSize + 1, 1⟩ ∧
    n.shortTxPacket 0 = 1 ∧ n.frame = n.shortTxPacket) ∨
  (n.mac.dma = some ⟨.packet (.radioLinkTxPacket n.radioLinkTxInterruptIndex), .rfd,
    maxPacketSize + 1, 1⟩ ∧ n.radioLinkTxInterruptIndex ≠ n.radioLinkTxMainLoopIndex ∧
    n.frame = n.radioLinkTxPacket n.radioLinkTxInterruptIndex)

structure Consistent (n : Node) : Prop extends n.InRange where
  rx : n.ArmedRx
  tx : n.ArmedTx

variable {n : Node}

theorem radioLinkTxQueued_eq_count (h : n.InRange) : n.radioLinkTxQueued =
    Ring.count txPacketCount n.radioLinkTxInterruptIndex n.radioLinkTxMainLoopIndex := by
  have hm := h.txMain
  have hi := h.txInterrupt
  simp only [radioLinkTxQueued, Ring.count, txPacketCount] at *
  split_ifs <;> omega

theorem radioLinkTxAvailable_add_queued (n : Node) :
    n.radioLinkTxAvailable + n.radioLinkTxQueued = 15 := by
  simp only [radioLinkTxAvailable, radioLinkTxQueued, txPacketCount]
  omega

theorem radioLinkTxCurrentPacket_ne_none (h : n.InRange) : n.radioLinkTxCurrentPacket ≠ none ↔
    Ring.next txPacketCount n.radioLinkTxMainLoopIndex ≠ n.radioLinkTxInterruptIndex := by
  have hsum := n.radioLinkTxAvailable_add_queued
  have hcount := radioLinkTxQueued_eq_count h
  have hnext := Ring.next_eq_iff_count (by decide) h.txInterrupt h.txMain
  have hfull : n.radioLinkTxAvailable = 0 ↔
      Ring.count txPacketCount n.radioLinkTxInterruptIndex n.radioLinkTxMainLoopIndex =
        txPacketCount - 1 := by
    simp only [txPacketCount] at *
    omega
  rw [ne_eq, ne_eq, hnext, ← hfull]
  simp [radioLinkTxCurrentPacket]

theorem radioLinkRxCurrentPacket_ne_none : n.radioLinkRxCurrentPacket ≠ none ↔
    n.radioLinkRxMainLoopIndex ≠ n.radioLinkRxInterruptIndex := by
  simp [radioLinkRxCurrentPacket]

/-! ### The handler -/

theorem consistent_radioMacRx (h : n.InRange) (timeout : ℕ) :
    (n.radioMacRx (.radioLinkRxPacket n.radioLinkRxInterruptIndex) timeout).Consistent where
  toInRange := ⟨h.rxMain, h.rxInterrupt, h.txMain, h.txInterrupt, h.pktlen⟩
  rx _ := by simp [radioMacRx, Mac.radioMacRx, h.pktlen, maxPacketSize]
  tx hc := by cases hc

theorem consistent_txShortPacket (h : n.InRange) (k : UInt8) : (n.txShortPacket k).Consistent where
  toInRange := ⟨h.rxMain, h.rxInterrupt, h.txMain, h.txInterrupt, h.pktlen⟩
  rx hc := by cases hc
  tx _ := by simp [txShortPacket, radioMacTx, Mac.radioMacTx, buffer, h.pktlen, maxPacketSize]

theorem consistent_txDataPacket (h : n.InRange) (k : UInt8)
    (hne : n.radioLinkTxInterruptIndex ≠ n.radioLinkTxMainLoopIndex) :
    (n.txDataPacket k).Consistent where
  toInRange := ⟨h.rxMain, h.rxInterrupt, h.txMain, h.txInterrupt, h.pktlen⟩
  rx hc := by cases hc
  tx _ := Or.inr (by
    refine ⟨?_, hne, rfl⟩
    simp [txDataPacket, countTry, storeTx, radioMacTx, Mac.radioMacTx, h.pktlen, maxPacketSize])

theorem Consistent.noteActivity (h : n.Consistent) : n.noteActivity.Consistent :=
  ⟨⟨h.rxMain, h.rxInterrupt, h.txMain, h.txInterrupt, h.pktlen⟩, h.rx, h.tx⟩

theorem Consistent.countTry (h : n.Consistent) : n.countTry.Consistent :=
  ⟨⟨h.rxMain, h.rxInterrupt, h.txMain, h.txInterrupt, h.pktlen⟩, h.rx, h.tx⟩

theorem consistent_takeInitiative (h : n.InRange) : n.takeInitiative.Consistent := by
  unfold takeInitiative
  split_ifs with hres hne
  · exact (consistent_txShortPacket h _).countTry.noteActivity
  · exact (consistent_txDataPacket h _ hne).noteActivity
  · exact consistent_radioMacRx h 0

theorem consistent_respond (h : n.InRange) (k : Kind) : (n.respond k).Consistent := by
  unfold respond
  split_ifs with hne
  · exact (consistent_txDataPacket h _ hne).noteActivity
  · exact (consistent_txShortPacket h _).noteActivity

theorem InRange.acceptPacket (h : n.InRange) : n.acceptPacket.InRange :=
  ⟨h.rxMain, Ring.next_lt h.rxInterrupt, h.txMain, h.txInterrupt, h.pktlen⟩

theorem InRange.offerPacket (h : n.InRange) : n.offerPacket.1.InRange := by
  unfold Node.offerPacket
  split_ifs
  · exact h.acceptPacket
  · exact h
  · exact h

theorem InRange.handleAck (h : n.InRange) : n.handleAck.InRange := by
  unfold Node.handleAck
  split_ifs
  · exact ⟨h.rxMain, h.rxInterrupt, h.txMain, h.txInterrupt, h.pktlen⟩
  · exact ⟨h.rxMain, h.rxInterrupt, h.txMain, Ring.next_lt h.txInterrupt, h.pktlen⟩
  · exact h

theorem InRange.heedAck (h : n.InRange) (header : UInt8) : (n.heedAck header).InRange := by
  unfold Node.heedAck
  split_ifs
  · exact h.handleAck
  · exact h

theorem consistent_handleData (h : n.InRange) (length : UInt8) :
    (n.handleData length).Consistent := by
  unfold handleData
  split_ifs
  · exact consistent_respond h.offerPacket _
  · exact consistent_takeInitiative h

theorem consistent_handleReset (h : n.InRange) : n.handleReset.Consistent := by
  have hrec : Node.InRange ({ n with
      rxSequenceBit := true, radioLinkResetPacketReceived := true }.record .resetReceived) :=
    ⟨h.rxMain, h.rxInterrupt, h.txMain, h.txInterrupt, h.pktlen⟩
  exact (consistent_txShortPacket hrec _).noteActivity

theorem consistent_handleGoodCrc (h : n.InRange) : n.handleGoodCrc.Consistent := by
  unfold handleGoodCrc
  split_ifs
  · exact consistent_handleReset h
  · exact consistent_handleData (h.heedAck _) _

theorem consistent_handleBadCrc (h : n.InRange) (random : UInt8) :
    (n.handleBadCrc random).Consistent := by
  unfold handleBadCrc
  split_ifs
  · exact consistent_radioMacRx h _
  · exact consistent_radioMacRx h _

theorem consistent_radioMacEventHandler (h : n.InRange) (r : Readings) (e : MacEvent) :
    (radioMacEventHandler r e n).Consistent := by
  cases e with
  | tx => exact consistent_radioMacRx h _
  | rx =>
      simp only [radioMacEventHandler]
      split_ifs
      · exact consistent_handleGoodCrc h
      · exact consistent_handleBadCrc h _
  | rxTimeout => exact consistent_takeInitiative h
  | strobe => exact consistent_takeInitiative h

theorem InRange.beforeHandler (h : n.InRange) : n.beforeHandler.InRange :=
  ⟨h.rxMain, h.rxInterrupt, h.txMain, h.txInterrupt, h.pktlen⟩

theorem consistent_radioMacEvent (h : n.InRange) (r : Readings) (e : MacEvent) :
    (n.radioMacEvent r e).Consistent := by
  have hc := consistent_radioMacEventHandler h.beforeHandler r e
  exact ⟨⟨hc.rxMain, hc.rxInterrupt, hc.txMain, hc.txInterrupt, hc.pktlen⟩, hc.rx, hc.tx⟩

/-! ### The main loop and the DMA channel -/

theorem Consistent.storeTx (h : n.Consistent) (offset : ℕ) (b : UInt8) :
    (n.storeTx n.radioLinkTxMainLoopIndex offset b).Consistent := by
  refine ⟨⟨h.rxMain, h.rxInterrupt, h.txMain, h.txInterrupt, h.pktlen⟩, h.rx, ?_⟩
  intro hst
  rcases h.tx hst with hshort | ⟨hdma, hne, hframe⟩
  · exact Or.inl hshort
  · exact Or.inr ⟨hdma, hne, hframe.trans (Function.update_of_ne hne _ _).symm⟩

theorem Consistent.writeTxHeader (h : n.Consistent) (t : UInt8) :
    (n.writeTxHeader t).Consistent := (h.storeTx _ _).storeTx _ _

theorem Consistent.advanceTxMainLoopIndex (h : n.Consistent)
    (hfree : n.radioLinkTxCurrentPacket ≠ none) : n.advanceTxMainLoopIndex.Consistent := by
  have hnext := (radioLinkTxCurrentPacket_ne_none h.toInRange).mp hfree
  refine ⟨⟨h.rxMain, h.rxInterrupt, Ring.next_lt h.txMain, h.txInterrupt, h.pktlen⟩, h.rx, ?_⟩
  intro hst
  rcases h.tx hst with hshort | ⟨hdma, -, hframe⟩
  · exact Or.inl hshort
  · exact Or.inr ⟨hdma, hnext.symm, hframe⟩

theorem Consistent.radioMacStrobe (h : n.Consistent) : n.radioMacStrobe.Consistent :=
  ⟨⟨h.rxMain, h.rxInterrupt, h.txMain, h.txInterrupt, h.pktlen⟩, h.rx, h.tx⟩

theorem Consistent.radioLinkRxDoneWithPacket (h : n.Consistent) :
    n.radioLinkRxDoneWithPacket.Consistent :=
  ⟨⟨Ring.next_lt h.rxMain, h.rxInterrupt, h.txMain, h.txInterrupt, h.pktlen⟩, h.rx, h.tx⟩

theorem Consistent.reportErrors (h : n.Consistent) (f : RfReadings) :
    (client.reportErrors f n).Consistent :=
  ⟨⟨h.rxMain, h.rxInterrupt, h.txMain, h.txInterrupt, h.pktlen⟩, h.rx, h.tx⟩

/-- The DMA channel stores into the interrupt's RX buffer or nowhere. -/
theorem ArmedRx.dmaReceive_eq (hrx : n.ArmedRx) (bytes : List UInt8) :
    n.dmaReceive bytes = n ∨
    n.mac.radioMacState = .rx ∧ n.dmaReceive bytes = n.setBuffer (dmaStore (maxPacketSize + 3) bytes
      (n.radioLinkRxPacket n.radioLinkRxInterruptIndex))
      (.radioLinkRxPacket n.radioLinkRxInterruptIndex) := by
  unfold Node.dmaReceive
  split
  · rename_i p lenl vlen hst hdma
    have harmed := hrx hst
    rw [hdma] at harmed
    simp only [Option.some.injEq, RadioDma.mk.injEq, DmaAddress.packet.injEq] at harmed
    obtain ⟨-, rfl, rfl, -⟩ := harmed
    exact Or.inr ⟨hst, rfl⟩
  · exact Or.inl rfl

theorem Consistent.dmaReceive (h : n.Consistent) (bytes : List UInt8) :
    (n.dmaReceive bytes).Consistent := by
  rcases h.rx.dmaReceive_eq bytes with he | ⟨-, he⟩
  · rw [he]
    exact h
  · rw [he]
    exact ⟨⟨h.rxMain, h.rxInterrupt, h.txMain, h.txInterrupt, h.pktlen⟩, h.rx, h.tx⟩

theorem consistent_radioLinkInit (channel : UInt8) :
    (powerUp.radioLinkInit channel).Consistent := by
  refine ⟨⟨Nat.succ_pos 2, Nat.succ_pos 2, Nat.succ_pos 15, Nat.succ_pos 15, rfl⟩, ?_, ?_⟩
  · intro hc
    cases hc
  · intro hc
    cases hc

/-! ### RX buffers that an event leaves alone -/

@[simp] theorem takeInitiative_rxPacket (n : Node) :
    n.takeInitiative.radioLinkRxPacket = n.radioLinkRxPacket := by
  unfold takeInitiative
  split_ifs <;> rfl

@[simp] theorem respond_rxPacket (n : Node) (k : Kind) :
    (n.respond k).radioLinkRxPacket = n.radioLinkRxPacket := by
  unfold respond
  split_ifs <;> rfl

@[simp] theorem heedAck_rxPacket (n : Node) (header : UInt8) :
    (n.heedAck header).radioLinkRxPacket = n.radioLinkRxPacket := by
  unfold heedAck handleAck
  split_ifs <;> rfl

@[simp] theorem heedAck_rxInterruptIndex (n : Node) (header : UInt8) :
    (n.heedAck header).radioLinkRxInterruptIndex = n.radioLinkRxInterruptIndex := by
  unfold heedAck handleAck
  split_ifs <;> rfl

@[simp] theorem handleBadCrc_rxPacket (n : Node) (random : UInt8) :
    (n.handleBadCrc random).radioLinkRxPacket = n.radioLinkRxPacket := by
  unfold handleBadCrc
  split_ifs <;> rfl

theorem offerPacket_rxPacket {i : ℕ} (hi : i ≠ n.radioLinkRxInterruptIndex) :
    n.offerPacket.1.radioLinkRxPacket i = n.radioLinkRxPacket i := by
  unfold offerPacket
  split_ifs
  · exact Function.update_of_ne hi _ _
  · rfl
  · rfl

theorem handleGoodCrc_rxPacket {i : ℕ} (hi : i ≠ n.radioLinkRxInterruptIndex) :
    n.handleGoodCrc.radioLinkRxPacket i = n.radioLinkRxPacket i := by
  unfold handleGoodCrc handleData
  split_ifs
  · rfl
  · have hi' : i ≠ (n.heedAck (n.currentRxPacket 1)).radioLinkRxInterruptIndex := by
      rwa [heedAck_rxInterruptIndex]
    rw [respond_rxPacket, offerPacket_rxPacket hi', heedAck_rxPacket]
  · rw [takeInitiative_rxPacket, heedAck_rxPacket]

theorem radioMacEvent_rxPacket {i : ℕ} (hi : i ≠ n.radioLinkRxInterruptIndex) (r : Readings)
    (e : MacEvent) : (n.radioMacEvent r e).radioLinkRxPacket i = n.radioLinkRxPacket i := by
  change (radioMacEventHandler r e n.beforeHandler).radioLinkRxPacket i = _
  cases e with
  | tx => rfl
  | rx =>
      simp only [radioMacEventHandler]
      split_ifs
      · exact handleGoodCrc_rxPacket hi
      · exact congrFun (handleBadCrc_rxPacket _ _) i
  | rxTimeout => exact congrFun (takeInitiative_rxPacket _) i
  | strobe => exact congrFun (takeInitiative_rxPacket _) i

theorem Consistent.dmaReceive_rxPacket (h : n.Consistent) {i : ℕ}
    (hi : i ≠ n.radioLinkRxInterruptIndex) (bytes : List UInt8) :
    (n.dmaReceive bytes).radioLinkRxPacket i = n.radioLinkRxPacket i := by
  rcases h.rx.dmaReceive_eq bytes with he | ⟨-, he⟩
  · rw [he]
  · rw [he]
    exact Function.update_of_ne hi _ _

end Node

namespace Station

variable {s t : Station} {a : Action}

theorem consistent_step (h : s.node.Consistent)
    (ha : s.Documented a) (hs : s.step a = some t) : t.node.Consistent := by
  rw [step_node hs]
  cases a with
  | storeTx offset b => exact h.storeTx _ _
  | sendPacket ty => exact (h.writeTxHeader ty).advanceTxMainLoopIndex ha
  | strobe => exact h.radioMacStrobe
  | rxDone => exact h.radioLinkRxDoneWithPacket
  | txQueueReset => exact ha.elim
  | changeChannel channel => exact ha.elim
  | dma bytes => exact h.dmaReceive bytes
  | event e r => exact Node.consistent_radioMacEvent h.toInRange r e
  | rfErrors f => exact h.reportErrors f

/-- Only the interrupt's own RX buffer ever changes. -/
theorem step_rxPacket (h : s.node.Consistent) (hs : s.step a = some t) {i : ℕ}
    (hi : i ≠ s.node.radioLinkRxInterruptIndex) :
    t.node.radioLinkRxPacket i = s.node.radioLinkRxPacket i := by
  rw [step_node hs]
  cases a with
  | dma bytes => exact h.dmaReceive_rxPacket hi bytes
  | event e r => exact Node.radioMacEvent_rxPacket hi r e
  | _ => rfl

/-- How the main loop, the interrupt and the DMA channel share the two rings. -/
structure Ownership (n : Node) : Prop where
  indices : n.radioLinkRxMainLoopIndex < rxPacketCount ∧
    n.radioLinkRxInterruptIndex < rxPacketCount ∧
    n.radioLinkTxMainLoopIndex < txPacketCount ∧ n.radioLinkTxInterruptIndex < txPacketCount
  counts : n.radioLinkTxAvailable + n.radioLinkTxQueued = 15
  receiving : n.mac.radioMacState = .rx → ∃ dma, n.mac.dma = some dma ∧
    dma.dest = .packet (.radioLinkRxPacket n.radioLinkRxInterruptIndex)
  mainLoopOwned : n.radioLinkRxInterruptIndex ∉
      Ring.owned rxPacketCount n.radioLinkRxMainLoopIndex n.radioLinkRxInterruptIndex ∧
    n.rxOwned ≤ 2
  transmitting : n.mac.radioMacState = .tx → ∃ dma, n.mac.dma = some dma ∧
    (dma.src = .packet .shortTxPacket ∧ n.shortTxPacket 0 = 1 ∨
      dma.src = .packet (.radioLinkTxPacket n.radioLinkTxInterruptIndex) ∧
        n.radioLinkTxMainLoopIndex ≠ n.radioLinkTxInterruptIndex)

theorem ownership_of_consistent {n : Node} (h : n.Consistent) : Ownership n where
  indices := ⟨h.rxMain, h.rxInterrupt, h.txMain, h.txInterrupt⟩
  counts := n.radioLinkTxAvailable_add_queued
  receiving hst := ⟨_, h.rx hst, rfl⟩
  mainLoopOwned := ⟨Ring.write_notMem_owned h.rxInterrupt,
    Nat.le_of_lt_succ (Ring.count_lt h.rxMain h.rxInterrupt)⟩
  transmitting hst := by
    rcases h.tx hst with ⟨hdma, hlen, -⟩ | ⟨hdma, hne, -⟩
    · exact ⟨_, hdma, Or.inl ⟨rfl, hlen⟩⟩
    · exact ⟨_, hdma, Or.inr ⟨rfl, hne.symm⟩⟩

theorem consistent_of_run {channel : UInt8}
    (hr : Run step Documented (init channel) s) : s.node.Consistent :=
  Run.invariant (I := fun s => s.node.Consistent) hr (Node.consistent_radioLinkInit channel)
    (fun _ _ _ h ha hs => consistent_step h ha hs)

/-- In every reachable state the buffers are shared as `Ownership` says, and no step changes a
buffer that the main loop owns. -/
theorem buffer_ownership {channel : UInt8} (hr : Run step Documented (init channel) s) :
    Ownership s.node ∧
    ∀ a t, Documented s a → s.step a = some t →
      ∀ i ∈ Ring.owned rxPacketCount s.node.radioLinkRxMainLoopIndex
          s.node.radioLinkRxInterruptIndex,
        t.node.radioLinkRxPacket i = s.node.radioLinkRxPacket i := by
  have h := consistent_of_run hr
  refine ⟨ownership_of_consistent h, ?_⟩
  intro a t _ hs i hi
  apply step_rxPacket h hs
  intro he
  exact Ring.write_notMem_owned h.rxInterrupt (he ▸ hi)

theorem buffer_ownership_while_transmitting : ∃ s, Run step Documented (init 0) s ∧
    s.node.mac.radioMacState = .tx ∧ s.node.radioLinkTxQueued = 1 ∧ Ownership s.node := by
  have hrun : (exec step Documented (init 0) [.event .strobe ⟨true, 0⟩, .event .tx ⟨true, 0⟩,
      .dma [1, packetType .ack], .event .rx ⟨true, 0⟩, .storeTx 1 1, .storeTx 2 7, .sendPacket 0,
      .strobe, .event .strobe ⟨true, 0⟩]).map
      (fun s => (s.node.mac.radioMacState, s.node.radioLinkTxQueued)) =
      some (.tx, 1) := by decide +kernel
  obtain ⟨s, hr, hs⟩ := exists_run_of_exec hrun
  simp only [Prod.mk.injEq] at hs
  exact ⟨s, hr, hs.1, hs.2, (buffer_ownership hr).1⟩

end Station
end WixelSdk.RadioLink
