import WixelSdk.RadioLinkView

/-!
# What an interrupt may do between two instructions of the main loop

`Serves n m` is all that code above the link needs to know about the RF interrupt and the DMA channel:
they free TX buffers, append accepted packets to the main loop's part of the RX ring, record reset
frames, and leave the buffer under construction alone. It is reflexive and transitive, so it also
describes any number of interrupts.
-/

namespace WixelSdk.RadioLink
open RadioMac StopAndWait

inductive Irq
  | dma (bytes : List UInt8)
  | event (e : MacEvent) (r : Readings)
  | errors (h : RfReadings)

/-- The events that the interrupt records. It accepts no packet without data. -/
def LinkEvent.Interrupt : LinkEvent → Prop
  | .accepted p => p.payload ≠ []
  | .resetReceived => True
  | _ => False

theorem LinkEvent.Interrupt.sent?_eq_none {e : LinkEvent} (h : e.Interrupt) : e.sent? = none := by
  cases e <;> first | rfl | exact h.elim

theorem LinkEvent.Interrupt.received?_eq_none {e : LinkEvent} (h : e.Interrupt) :
    e.received? = none := by
  cases e <;> first | rfl | exact h.elim

namespace Node

/-- The radio receives only after the strobe SRX, which `radioLinkChangeChannel` takes back. The end
of a transmission that it has forced is still reported as an RX event. -/
def interrupt (n : Node) : Irq → Node
  | .dma bytes => if n.mac.rfst = .srx then n.dmaReceive bytes else n
  | .event e r => if n.mac.Reports e then n.radioMacEvent r e else n
  | .errors h => client.reportErrors h n

/-- The node as each of the interrupts finds it. -/
def visits (n : Node) : List Irq → List (Node × Irq)
  | [] => []
  | i :: is => (n, i) :: (n.interrupt i).visits is

/-- While the radio receives, it does so into the interrupt's RX buffer. -/
def Tuned (n : Node) : Prop := n.mac.rfst = .srx → n.ArmedRx

structure Serves (n m : Node) : Prop where
  txMain : m.radioLinkTxMainLoopIndex = n.radioLinkTxMainLoopIndex
  rxMain : m.radioLinkRxMainLoopIndex = n.radioLinkRxMainLoopIndex
  slot : m.radioLinkTxPacket n.radioLinkTxMainLoopIndex =
    n.radioLinkTxPacket n.radioLinkTxMainLoopIndex
  queued : m.radioLinkTxQueued ≤ n.radioLinkTxQueued
  events : ∃ es : List LinkEvent, m.history = n.history ++ es ∧ (∀ e ∈ es, e.Interrupt) ∧
    (m.radioLinkResetPacketReceived = true ↔
      n.radioLinkResetPacketReceived = true ∨ .resetReceived ∈ es) ∧
    m.view.inbox = n.view.inbox ++ es.filterMap LinkEvent.accepted?

variable {n m o : Node}

theorem Serves.refl (n : Node) : Serves n n :=
  ⟨rfl, rfl, rfl, Nat.le_refl _, [], by simp, by simp, by simp, by simp⟩

/-- The buffer under construction is the same one throughout. -/
theorem slot_trans (hmain : m.radioLinkTxMainLoopIndex = n.radioLinkTxMainLoopIndex)
    (h : m.radioLinkTxPacket n.radioLinkTxMainLoopIndex =
      n.radioLinkTxPacket n.radioLinkTxMainLoopIndex)
    (h' : o.radioLinkTxPacket m.radioLinkTxMainLoopIndex =
      m.radioLinkTxPacket m.radioLinkTxMainLoopIndex) :
    o.radioLinkTxPacket n.radioLinkTxMainLoopIndex =
      n.radioLinkTxPacket n.radioLinkTxMainLoopIndex := by
  rw [hmain] at h'
  exact h'.trans h

theorem Serves.trans (h : Serves n m) (h' : Serves m o) : Serves n o := by
  obtain ⟨es, hes, hint, hflag, hinbox⟩ := h.events
  obtain ⟨es', hes', hint', hflag', hinbox'⟩ := h'.events
  refine ⟨h'.txMain.trans h.txMain, h'.rxMain.trans h.rxMain, ?_, h'.queued.trans h.queued,
    es ++ es', ?_, ?_, ?_, ?_⟩
  · exact slot_trans h.txMain h.slot h'.slot
  · rw [hes', hes, List.append_assoc]
  · exact List.forall_mem_append.mpr ⟨hint, hint'⟩
  · rw [hflag', hflag, List.mem_append, or_assoc]
  · rw [hinbox', hinbox, List.filterMap_append, List.append_assoc]

/-- An operation that records nothing. -/
theorem Serves.of_quiet (htx : m.radioLinkTxMainLoopIndex = n.radioLinkTxMainLoopIndex)
    (hrx : m.radioLinkRxMainLoopIndex = n.radioLinkRxMainLoopIndex)
    (hslot : m.radioLinkTxPacket n.radioLinkTxMainLoopIndex =
      n.radioLinkTxPacket n.radioLinkTxMainLoopIndex)
    (hqueued : m.radioLinkTxQueued ≤ n.radioLinkTxQueued) (hhistory : m.history = n.history)
    (hflag : m.radioLinkResetPacketReceived = n.radioLinkResetPacketReceived)
    (hinbox : m.view.inbox = n.view.inbox) : Serves n m :=
  ⟨htx, hrx, hslot, hqueued, [], by simp [hhistory], by simp, by simp [hflag], by simp [hinbox]⟩

theorem serves_radioMacRx (n : Node) (p : Buffer) (timeout : ℕ) :
    Serves n (n.radioMacRx p timeout) :=
  .of_quiet rfl rfl rfl (Nat.le_refl _) rfl rfl rfl

theorem serves_txShortPacket (n : Node) (k : UInt8) : Serves n (n.txShortPacket k) :=
  .of_quiet rfl rfl rfl (Nat.le_refl _) rfl rfl rfl

theorem serves_txDataPacket (k : UInt8)
    (hne : n.radioLinkTxInterruptIndex ≠ n.radioLinkTxMainLoopIndex) :
    Serves n (n.txDataPacket k) :=
  .of_quiet rfl rfl (Function.update_of_ne (Ne.symm hne) _ _) (Nat.le_refl _) rfl rfl rfl

theorem serves_noteActivity (n : Node) : Serves n n.noteActivity :=
  .of_quiet rfl rfl rfl (Nat.le_refl _) rfl rfl rfl

theorem serves_takeInitiative (n : Node) : Serves n n.takeInitiative := by
  unfold takeInitiative
  split_ifs with hres hne
  · exact (serves_txShortPacket n _).trans (.of_quiet rfl rfl rfl (Nat.le_refl _) rfl rfl rfl)
  · exact (serves_txDataPacket _ hne).trans (serves_noteActivity _)
  · exact serves_radioMacRx n _ _

theorem serves_respond (n : Node) (k : Kind) : Serves n (n.respond k) := by
  unfold respond
  split_ifs with hne
  · exact (serves_txDataPacket _ hne).trans (serves_noteActivity _)
  · exact (serves_txShortPacket n _).trans (serves_noteActivity _)

theorem serves_handleBadCrc (n : Node) (random : UInt8) : Serves n (n.handleBadCrc random) := by
  unfold handleBadCrc
  split_ifs <;> exact serves_radioMacRx n _ _

theorem serves_handleReset (n : Node) : Serves n n.handleReset := by
  have hrec : Serves n ({ n with
      rxSequenceBit := true, radioLinkResetPacketReceived := true }.record .resetReceived) :=
    ⟨rfl, rfl, rfl, Nat.le_refl _, [.resetReceived], rfl, by simp [LinkEvent.Interrupt],
      by simp [record], (List.append_nil _).symm⟩
  exact (hrec.trans (serves_txShortPacket _ _)).trans (serves_noteActivity _)

theorem serves_heedAck (h : n.InRange) (header : UInt8) : Serves n (n.heedAck header) := by
  unfold heedAck
  split_ifs with hk
  · unfold handleAck
    split_ifs with hres hne
    · exact .of_quiet rfl rfl rfl (Nat.le_refl _) rfl rfl rfl
    · have hnew : InRange { n with
          radioLinkTxInterruptIndex := Ring.next txPacketCount n.radioLinkTxInterruptIndex
          radioLinkTxCurrentPacketTries := 0
          txSequenceBit := !n.txSequenceBit } :=
        ⟨h.rxMain, h.rxInterrupt, h.txMain, Ring.next_lt h.txInterrupt, h.pktlen⟩
      have hcount := Ring.count_next_read h.txInterrupt h.txMain hne
      refine .of_quiet rfl rfl rfl ?_ rfl rfl rfl
      rw [radioLinkTxQueued_eq_count hnew, radioLinkTxQueued_eq_count h]
      exact Nat.le_of_succ_le (Nat.le_of_eq hcount)
    · exact .refl n
  · exact .refl n

theorem serves_acceptPacket (h : n.InRange)
    (hroom : Ring.next rxPacketCount n.radioLinkRxInterruptIndex ≠ n.radioLinkRxMainLoopIndex)
    (hlong : 1 < (n.currentRxPacket 0).toNat) : Serves n n.acceptPacket := by
  refine ⟨rfl, rfl, rfl, Nat.le_refl _, [_], rfl, ?_, ?_, ?_⟩
  · intro e he
    obtain rfl := List.mem_singleton.mp he
    change (rxPacketOf _).payload ≠ []
    rw [rxPacketOf_accepted _ _ rfl hlong, ← List.length_pos_iff]
    simp only [txPacketOf, length_payload]
    omega
  · simp [acceptPacket, record]
  · rw [inbox_acceptPacket h hlong hroom, ← rxPacketOf_accepted _ _ rfl hlong]
    rfl

theorem serves_offerPacket (h : n.InRange) (hlong : 1 < (n.currentRxPacket 0).toNat) :
    Serves n n.offerPacket.1 := by
  unfold offerPacket
  split_ifs with hexp hroom
  · exact serves_acceptPacket h hroom hlong
  · exact .refl n
  · exact .refl n

theorem serves_handleGoodCrc (h : n.InRange) : Serves n n.handleGoodCrc := by
  unfold handleGoodCrc handleData
  split_ifs with hreset hlong
  · exact serves_handleReset n
  · have hoffer := serves_offerPacket (h.heedAck (n.currentRxPacket 1))
      (by rw [heedAck_currentRxPacket]; exact UInt8.lt_iff_toNat_lt.mp hlong)
    exact ((serves_heedAck h _).trans hoffer).trans (serves_respond _ _)
  · exact (serves_heedAck h _).trans (serves_takeInitiative _)

theorem serves_radioMacEventHandler (h : n.InRange) (r : Readings) (e : MacEvent) :
    Serves n (radioMacEventHandler r e n) := by
  cases e with
  | tx => exact serves_radioMacRx n _ _
  | rx =>
      simp only [radioMacEventHandler]
      split_ifs
      · exact serves_handleGoodCrc h
      · exact serves_handleBadCrc n _
  | rxTimeout => exact serves_takeInitiative n
  | strobe => exact serves_takeInitiative n

theorem serves_radioMacEvent (h : n.InRange) (r : Readings) (e : MacEvent) :
    Serves n (n.radioMacEvent r e) := by
  have hbefore : Serves n n.beforeHandler := .of_quiet rfl rfl rfl (Nat.le_refl _) rfl rfl rfl
  have hafter : Serves (radioMacEventHandler r e n.beforeHandler) (n.radioMacEvent r e) :=
    .of_quiet rfl rfl rfl (Nat.le_refl _) rfl rfl rfl
  exact (hbefore.trans (serves_radioMacEventHandler h.beforeHandler r e)).trans hafter

theorem serves_dmaReceive (h : n.InRange) (hrx : n.ArmedRx) (bytes : List UInt8) :
    Serves n (n.dmaReceive bytes) := by
  have hinbox := congrArg Party.inbox (view_dmaReceive h hrx bytes)
  rcases hrx.dmaReceive_eq bytes with he | ⟨-, he⟩
  · rw [he]
    exact .refl n
  · rw [he] at hinbox ⊢
    exact .of_quiet rfl rfl rfl (Nat.le_refl _) rfl rfl hinbox

structure Serviceable (n : Node) : Prop extends n.InRange where
  tuned : n.Tuned

theorem Serviceable.interrupt (h : n.Serviceable) (i : Irq) :
    Serves n (n.interrupt i) ∧ (n.interrupt i).Serviceable := by
  cases i with
  | dma bytes =>
      simp only [Node.interrupt]
      split_ifs with hsrx
      · refine ⟨serves_dmaReceive h.toInRange (h.tuned hsrx) bytes, ?_⟩
        rcases (h.tuned hsrx).dmaReceive_eq bytes with he | ⟨-, he⟩
        · rw [he]
          exact h
        · rw [he]
          exact ⟨⟨h.rxMain, h.rxInterrupt, h.txMain, h.txInterrupt, h.pktlen⟩, h.tuned⟩
      · exact ⟨.refl n, h⟩
  | event e r =>
      simp only [Node.interrupt]
      split_ifs with hrep
      · have hc := consistent_radioMacEvent h.toInRange r e
        exact ⟨serves_radioMacEvent h.toInRange r e, hc.toInRange, fun _ => hc.rx⟩
      · exact ⟨.refl n, h⟩
  | errors f =>
      exact ⟨.of_quiet rfl rfl rfl (Nat.le_refl _) rfl rfl rfl,
        ⟨h.rxMain, h.rxInterrupt, h.txMain, h.txInterrupt, h.pktlen⟩, h.tuned⟩

theorem Serviceable.interrupts (h : n.Serviceable) (is : List Irq) :
    Serves n (is.foldl Node.interrupt n) ∧ (is.foldl Node.interrupt n).Serviceable := by
  induction is generalizing n with
  | nil => exact ⟨.refl n, h⟩
  | cons i is ih =>
      obtain ⟨hserves, hnext⟩ := h.interrupt i
      obtain ⟨hserves', hlast⟩ := ih hnext
      exact ⟨hserves.trans hserves', hlast⟩

/-! ### The two directions apart -/

/-- Nothing was queued, and what the main loop is about to queue is untouched. -/
structure TxQuiet (n m : Node) : Prop where
  txMain : m.radioLinkTxMainLoopIndex = n.radioLinkTxMainLoopIndex
  slot : m.radioLinkTxPacket n.radioLinkTxMainLoopIndex =
    n.radioLinkTxPacket n.radioLinkTxMainLoopIndex
  queued : m.radioLinkTxQueued ≤ n.radioLinkTxQueued
  events : ∃ es : List LinkEvent, m.history = n.history ++ es ∧ ∀ e ∈ es, e.sent? = none

/-- Nothing was handed to the main loop, and the ring holds in addition what was accepted. -/
structure RxQuiet (n m : Node) : Prop where
  rxMain : m.radioLinkRxMainLoopIndex = n.radioLinkRxMainLoopIndex
  events : ∃ es : List LinkEvent, m.history = n.history ++ es ∧ (∀ e ∈ es, e.received? = none) ∧
    (∀ p ∈ es.filterMap LinkEvent.accepted?, p.payload ≠ []) ∧
    m.view.inbox = n.view.inbox ++ es.filterMap LinkEvent.accepted?

theorem TxQuiet.refl (n : Node) : TxQuiet n n :=
  ⟨rfl, rfl, Nat.le_refl _, [], by simp, by simp⟩

theorem TxQuiet.trans (h : TxQuiet n m) (h' : TxQuiet m o) : TxQuiet n o := by
  obtain ⟨es, hes, hnone⟩ := h.events
  obtain ⟨es', hes', hnone'⟩ := h'.events
  refine ⟨h'.txMain.trans h.txMain, ?_, h'.queued.trans h.queued, es ++ es', ?_, ?_⟩
  · exact slot_trans h.txMain h.slot h'.slot
  · rw [hes', hes, List.append_assoc]
  · exact List.forall_mem_append.mpr ⟨hnone, hnone'⟩

theorem RxQuiet.of_events (hrx : m.radioLinkRxMainLoopIndex = n.radioLinkRxMainLoopIndex)
    (hevents : ∃ es : List LinkEvent, m.history = n.history ++ es ∧
      ∀ e ∈ es, e.received? = none ∧ e.accepted? = none)
    (hinbox : m.view.inbox = n.view.inbox) : RxQuiet n m := by
  obtain ⟨es, hes, hnone⟩ := hevents
  have hacc : es.filterMap LinkEvent.accepted? = [] :=
    List.filterMap_eq_nil_iff.mpr fun e he => (hnone e he).2
  refine ⟨hrx, es, hes, fun e he => (hnone e he).1, ?_, ?_⟩
  · simp [hacc]
  · simp [hacc, hinbox]

theorem RxQuiet.refl (n : Node) : RxQuiet n n := .of_events rfl ⟨[], by simp, by simp⟩ rfl

theorem RxQuiet.trans (h : RxQuiet n m) (h' : RxQuiet m o) : RxQuiet n o := by
  obtain ⟨es, hes, hnone, hdata, hinbox⟩ := h.events
  obtain ⟨es', hes', hnone', hdata', hinbox'⟩ := h'.events
  refine ⟨h'.rxMain.trans h.rxMain, es ++ es', ?_, ?_, ?_, ?_⟩
  · rw [hes', hes, List.append_assoc]
  · exact List.forall_mem_append.mpr ⟨hnone, hnone'⟩
  · intro p hp
    rw [List.filterMap_append] at hp
    rcases List.mem_append.mp hp with hp | hp
    · exact hdata p hp
    · exact hdata' p hp
  · rw [hinbox', hinbox, List.filterMap_append, List.append_assoc]

theorem Serves.txQuiet (h : Serves n m) : TxQuiet n m := by
  obtain ⟨es, hes, hint, -, -⟩ := h.events
  exact ⟨h.txMain, h.slot, h.queued, es, hes, fun e he => (hint e he).sent?_eq_none⟩

theorem Serves.rxQuiet (h : Serves n m) : RxQuiet n m := by
  obtain ⟨es, hes, hint, -, hinbox⟩ := h.events
  refine ⟨h.rxMain, es, hes, fun e he => (hint e he).received?_eq_none, fun p hp => ?_, hinbox⟩
  obtain ⟨e, he, hsome⟩ := List.mem_filterMap.mp hp
  cases e with
  | accepted q =>
      obtain rfl := Option.some.inj hsome
      exact hint _ he
  | queued => cases hsome
  | released => cases hsome
  | resetReceived => cases hsome

theorem txQuiet_radioLinkRxDoneWithPacket (n : Node) : TxQuiet n n.radioLinkRxDoneWithPacket :=
  ⟨rfl, rfl, Nat.le_refl _, [_], rfl, by simp [LinkEvent.sent?]⟩

theorem rxQuiet_storeTx (n : Node) (slot offset : ℕ) (b : UInt8) :
    RxQuiet n (n.storeTx slot offset b) :=
  .of_events rfl ⟨[], (List.append_nil _).symm, by simp⟩ rfl

theorem rxQuiet_advanceTxMainLoopIndex (n : Node) : RxQuiet n n.advanceTxMainLoopIndex :=
  .of_events rfl ⟨[_], rfl, by simp [LinkEvent.received?, LinkEvent.accepted?]⟩ rfl

theorem Serviceable.storeTx (h : n.Serviceable) (slot offset : ℕ) (b : UInt8) :
    (n.storeTx slot offset b).Serviceable := ⟨h.toInRange.storeTx _ _ _, h.tuned⟩

theorem Serviceable.writeTxHeader (h : n.Serviceable) (t : UInt8) :
    (n.writeTxHeader t).Serviceable := (h.storeTx _ _ _).storeTx _ _ _

theorem Serviceable.advanceTxMainLoopIndex (h : n.Serviceable) :
    n.advanceTxMainLoopIndex.Serviceable :=
  ⟨⟨h.rxMain, h.rxInterrupt, Ring.next_lt h.txMain, h.txInterrupt, h.pktlen⟩, h.tuned⟩

theorem Serviceable.radioMacStrobe (h : n.Serviceable) : n.radioMacStrobe.Serviceable :=
  ⟨⟨h.rxMain, h.rxInterrupt, h.txMain, h.txInterrupt, h.pktlen⟩, h.tuned⟩

theorem Serviceable.radioLinkRxDoneWithPacket (h : n.Serviceable) :
    n.radioLinkRxDoneWithPacket.Serviceable :=
  ⟨⟨Ring.next_lt h.rxMain, h.rxInterrupt, h.txMain, h.txInterrupt, h.pktlen⟩, h.tuned⟩

theorem Serviceable.radioLinkChangeChannel (h : n.Serviceable) (channel : UInt8) :
    (n.radioLinkChangeChannel channel).Serviceable := by
  refine ⟨⟨h.rxMain, h.rxMain, h.txMain, h.txMain, h.pktlen⟩, ?_⟩
  intro hc
  cases hc

theorem serviceable_radioLinkInit (channel : UInt8) :
    (powerUp.radioLinkInit channel).Serviceable :=
  ⟨(consistent_radioLinkInit channel).toInRange, fun _ => (consistent_radioLinkInit channel).rx⟩

theorem history_advanceTxMainLoopIndex (n : Node) : n.advanceTxMainLoopIndex.history =
    n.history ++ [.queued n.radioLinkTxQueued n.advanceTxMainLoopIndex.radioLinkTxQueued
      (txPacketOf (n.radioLinkTxPacket n.radioLinkTxMainLoopIndex))] := rfl

theorem queued_advanceTxMainLoopIndex (h : n.InRange) (hfree : n.radioLinkTxQueued < 15) :
    n.advanceTxMainLoopIndex.radioLinkTxQueued = n.radioLinkTxQueued + 1 := by
  have hnew : n.advanceTxMainLoopIndex.InRange :=
    ⟨h.rxMain, h.rxInterrupt, Ring.next_lt h.txMain, h.txInterrupt, h.pktlen⟩
  have hnext := Ring.next_eq_iff_count (by decide) h.txInterrupt h.txMain
  rw [radioLinkTxQueued_eq_count h] at hfree
  have hfull : Ring.next txPacketCount n.radioLinkTxMainLoopIndex ≠
      n.radioLinkTxInterruptIndex := fun he => by
    have hcount := hnext.mp he
    simp only [txPacketCount] at hcount hfree
    omega
  rw [radioLinkTxQueued_eq_count hnew, radioLinkTxQueued_eq_count h]
  exact Ring.count_next_write h.txInterrupt h.txMain hfull

end Node
end WixelSdk.RadioLink
