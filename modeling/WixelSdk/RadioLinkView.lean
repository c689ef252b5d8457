import WixelSdk.RadioLinkOwnership
import WixelSdk.StopAndWaitSync

/-!
# The node as a party of the stop-and-wait protocol

`view` forgets the ring memory, the indices and the DMA channel and keeps the two queues as lists,
the protocol bits and the frame on the air. Each function of the link computes the operation of the
abstract party that it stands for: events are `listen`, `initiate` and `receive`, the main loop's
calls are `enqueue`, `release` and `discard`.
-/

namespace WixelSdk.RadioLink
open RadioMac StopAndWait

namespace Node

def view (n : Node) : Party Packet where
  queue := Ring.contents txPacketCount (fun i => txPacketOf (n.radioLinkTxPacket i))
    n.radioLinkTxInterruptIndex n.radioLinkTxMainLoopIndex
  inbox := Ring.contents rxPacketCount (fun i => rxPacketOf (n.radioLinkRxPacket i))
    n.radioLinkRxMainLoopIndex n.radioLinkRxInterruptIndex
  resetting := n.sendingReset
  anyBit := n.acceptAnySequenceBit
  rxBit := n.rxSequenceBit
  txBit := n.txSequenceBit
  air := n.transmitting.map frameOf
  sent := n.sent
  accepted := n.accepted

/-- Every queued packet has data and fits a frame. -/
def Loaded (n : Node) : Prop :=
  ∀ p ∈ n.view.queue, 1 ≤ p.payload.length ∧ p.payload.length ≤ payloadSize

variable {n : Node}

theorem queue_eq_nil (h : n.InRange) : n.view.queue = [] ↔
    n.radioLinkTxInterruptIndex = n.radioLinkTxMainLoopIndex :=
  Ring.contents_eq_nil _ h.txInterrupt

theorem queue_head? (h : n.InRange)
    (hne : n.radioLinkTxInterruptIndex ≠ n.radioLinkTxMainLoopIndex) : n.view.queue.head? =
    some (txPacketOf (n.radioLinkTxPacket n.radioLinkTxInterruptIndex)) :=
  Ring.contents_head? _ h.txInterrupt h.txMain hne

theorem Loaded.head (hl : n.Loaded) (h : n.InRange)
    (hne : n.radioLinkTxInterruptIndex ≠ n.radioLinkTxMainLoopIndex) :
    1 < (n.radioLinkTxPacket n.radioLinkTxInterruptIndex 0).toNat ∧
      (n.radioLinkTxPacket n.radioLinkTxInterruptIndex 0).toNat ≤ maxPacketSize := by
  have hmem := List.mem_of_mem_head? (queue_head? h hne)
  have hlen := hl _ hmem
  simp only [txPacketOf, length_payload, payloadSize, maxPacketSize] at *
  omega

/-! ### Choosing the next radio mode -/

@[simp] theorem view_radioMacRx (p : Buffer) (timeout : ℕ) :
    (n.radioMacRx p timeout).view = n.view.listen := rfl

@[simp] theorem view_countTry : n.countTry.view = n.view := rfl

@[simp] theorem view_noteActivity : n.noteActivity.view = n.view := rfl

theorem view_txShortPacket (k : Kind) :
    (n.txShortPacket (packetType k)).view = { n.view with air := some ⟨k, none⟩ } := by
  have hair : (n.txShortPacket (packetType k)).view.air = some ⟨k, none⟩ := by
    change some (frameOf (Function.update (Function.update n.shortTxPacket 0 1) 1 (packetType k)))
      = _
    simp [frameOf]
  exact Party.ext rfl rfl rfl rfl rfl rfl hair rfl rfl

theorem txPacketOf_txDataPacket (k : Kind) (i : ℕ) :
    txPacketOf ((n.txDataPacket (packetType k)).radioLinkTxPacket i) =
      txPacketOf (n.radioLinkTxPacket i) := by
  change txPacketOf (Function.update n.radioLinkTxPacket n.radioLinkTxInterruptIndex _ i) = _
  by_cases hi : i = n.radioLinkTxInterruptIndex
  · subst hi
    rw [Function.update_self, txPacketOf_header]
  · rw [Function.update_of_ne hi]

theorem view_txDataPacket (h : n.InRange) (hl : n.Loaded) (k : Kind)
    (hne : n.radioLinkTxInterruptIndex ≠ n.radioLinkTxMainLoopIndex) :
    (n.txDataPacket (packetType k)).view = n.view.answer k := by
  have hqueue : (n.txDataPacket (packetType k)).view.queue = n.view.queue :=
    Ring.contents_congr fun i _ => txPacketOf_txDataPacket k i
  have hair : (n.txDataPacket (packetType k)).view.air = (n.view.answer k).air := by
    have hlong := (hl.head h hne).1
    have hpacket := txPacketOf_txDataPacket (n := n) k n.radioLinkTxInterruptIndex
    have hbuf : (n.txDataPacket (packetType k)).radioLinkTxPacket n.radioLinkTxInterruptIndex =
        Function.update (n.radioLinkTxPacket n.radioLinkTxInterruptIndex) 1
          (header (n.radioLinkTxPacket n.radioLinkTxInterruptIndex 1) (packetType k)
            n.txSequenceBit) := Function.update_self _ _ _
    change some (frameOf ((n.txDataPacket (packetType k)).radioLinkTxPacket
      n.radioLinkTxInterruptIndex)) = _
    rw [hbuf] at hpacket ⊢
    simp only [frameOf, hpacket, Party.answer, queue_head? h hne]
    simp [hlong, view]
  exact Party.ext hqueue rfl rfl rfl rfl rfl hair rfl rfl

theorem view_takeInitiative (h : n.InRange) (hl : n.Loaded) :
    n.takeInitiative.view = n.view.initiate := by
  unfold takeInitiative
  split_ifs with hres hne
  · have hres' : n.view.resetting = true := hres
    simp only [view_noteActivity, txResetPacket, view_countTry, view_txShortPacket,
      Party.initiate, if_pos hres']
  · have hres' : n.view.resetting ≠ true := hres
    have hq : ¬ n.view.queue.isEmpty = true := by
      rw [List.isEmpty_iff, queue_eq_nil h]
      exact hne
    simp only [view_noteActivity, view_txDataPacket h hl _ hne, Party.initiate, if_neg hres',
      if_neg hq]
  · have hres' : n.view.resetting ≠ true := hres
    have hq : n.view.queue.isEmpty = true := by
      rw [List.isEmpty_iff, queue_eq_nil h]
      exact not_not.mp hne
    simp only [view_radioMacRx, Party.initiate, if_neg hres', if_pos hq]

theorem view_respond (h : n.InRange) (hl : n.Loaded) (k : Kind) :
    (n.respond k).view = n.view.answer k := by
  unfold respond
  split_ifs with hne
  · rw [view_noteActivity, view_txDataPacket h hl k hne]
  · have hq : n.view.queue = [] := (queue_eq_nil h).mpr (not_not.mp hne)
    simp [view_txShortPacket, Party.answer, hq]

/-! ### A received frame -/

theorem sent_record (e : LinkEvent) : (n.record e).sent = n.sent ++ e.sent?.toList := by
  simp only [sent, record, List.filterMap_append]
  cases e <;> rfl

theorem accepted_record (e : LinkEvent) :
    (n.record e).accepted = n.accepted ++ e.accepted?.toList := by
  simp only [accepted, record, List.filterMap_append]
  cases e <;> rfl

theorem received_record (e : LinkEvent) :
    (n.record e).received = n.received ++ e.received?.toList := by
  simp only [received, record, List.filterMap_append]
  cases e <;> rfl

theorem transmitting_of_ne_tx (h : n.mac.radioMacState ≠ .tx) : n.transmitting = none := if_neg h

theorem transmitting_of_rx (h : n.mac.radioMacState = .rx) : n.transmitting = none :=
  transmitting_of_ne_tx (by simp [h])

theorem view_handleReset :
    n.handleReset.view = { n.view with rxBit := true, air := some ⟨.ack, none⟩ } := by
  unfold handleReset
  rw [view_noteActivity, view_txShortPacket]
  refine Party.ext rfl rfl rfl rfl rfl rfl rfl ?_ ?_
  · exact (sent_record _).trans (List.append_nil _)
  · exact (accepted_record _).trans (List.append_nil _)

theorem view_handleAck (h : n.InRange) : n.handleAck.view = n.view.acknowledge := by
  unfold handleAck Party.acknowledge
  by_cases hres : n.sendingReset = true
  · have hres' : n.view.resetting = true := hres
    rw [if_pos hres, if_pos hres']
    rfl
  · have hres' : ¬ n.view.resetting = true := hres
    rw [if_neg hres, if_neg hres']
    by_cases hne : n.radioLinkTxInterruptIndex ≠ n.radioLinkTxMainLoopIndex
    · have hq : ¬ n.view.queue.isEmpty = true := by
        rw [List.isEmpty_iff, queue_eq_nil h]
        exact hne
      rw [if_pos hne, if_neg hq]
      have htail := Ring.contents_cons (fun i => txPacketOf (n.radioLinkTxPacket i)) h.txInterrupt
        h.txMain hne
      refine Party.ext ?_ rfl rfl rfl rfl rfl rfl rfl rfl
      change Ring.contents _ _ _ _ = List.tail (Ring.contents _ _ _ _)
      rw [htail]
      rfl
    · have hq : n.view.queue.isEmpty = true := by
        rw [List.isEmpty_iff, queue_eq_nil h]
        exact not_not.mp hne
      rw [if_neg hne, if_pos hq]

theorem view_heedAck (h : n.InRange) (header : UInt8) :
    (n.heedAck header).view = n.view.heed (kindOf header) := by
  unfold heedAck Party.heed
  simp only [kindOf_eq_ack]
  split_ifs
  · exact view_handleAck h
  · rfl

theorem Loaded.heedAck (hl : n.Loaded) (h : n.InRange) (header : UInt8) :
    (n.heedAck header).Loaded := by
  intro p hp
  rw [view_heedAck h] at hp
  exact hl p (n.view.mem_queue_of_heed hp)

@[simp] theorem heedAck_mac (header : UInt8) : (n.heedAck header).mac = n.mac := by
  unfold heedAck handleAck
  split_ifs <;> rfl

@[simp] theorem heedAck_currentRxPacket (header : UInt8) :
    (n.heedAck header).currentRxPacket = n.currentRxPacket := by
  unfold currentRxPacket
  rw [heedAck_rxPacket, heedAck_rxInterruptIndex]

theorem rxPacketOf_accepted (packet : Buf) (t : UInt8)
    (ht : t = (packet 1 &&& payloadTypeMask) >>> 1) (hlong : 1 < (packet 0).toNat) :
    rxPacketOf (Function.update (Function.update packet 1 (packet 0 - 1)) 0 t) =
      txPacketOf packet := by
  have hlen : (packet 0 - 1).toNat = (packet 0).toNat - 1 :=
    UInt8.toNat_sub_of_le _ _ (UInt8.le_iff_toNat_le.mpr (by simpa using Nat.le_of_lt hlong))
  unfold rxPacketOf txPacketOf
  simp only [Function.update_self, Function.update_of_ne (Nat.one_ne_zero), hlen, ht]
  rw [payload_congr]
  intro i _
  rw [Function.update_of_ne (by omega), Function.update_of_ne (by omega)]

theorem inbox_acceptPacket (h : n.InRange) (hlong : 1 < (n.currentRxPacket 0).toNat)
    (hroom : Ring.next rxPacketCount n.radioLinkRxInterruptIndex ≠ n.radioLinkRxMainLoopIndex) :
    n.acceptPacket.view.inbox = n.view.inbox ++ [txPacketOf n.currentRxPacket] := by
  rw [← rxPacketOf_accepted n.currentRxPacket _ rfl hlong]
  exact Ring.contents_push rxPacketOf _ _ h.rxMain h.rxInterrupt hroom

theorem view_acceptPacket (h : n.InRange) (hst : n.mac.radioMacState = .rx)
    (hlong : 1 < (n.currentRxPacket 0).toNat)
    (hroom : Ring.next rxPacketCount n.radioLinkRxInterruptIndex ≠ n.radioLinkRxMainLoopIndex) :
    n.acceptPacket.view = { n.view with
      inbox := n.view.inbox ++ [txPacketOf n.currentRxPacket]
      accepted := n.view.accepted ++ [txPacketOf n.currentRxPacket]
      rxBit := seqOf (n.currentRxPacket 1)
      anyBit := false } := by
  have hpacket := rxPacketOf_accepted n.currentRxPacket _ rfl hlong
  refine Party.ext rfl ?_ rfl rfl rfl rfl ?_ ?_ ?_
  · exact inbox_acceptPacket h hlong hroom
  · have hst' : n.acceptPacket.mac.radioMacState = .rx := hst
    change Option.map _ _ = Option.map _ _
    rw [transmitting_of_rx hst, transmitting_of_rx hst']
  · exact (sent_record _).trans (List.append_nil _)
  · rw [← hpacket]
    exact accepted_record _

theorem view_offerPacket (h : n.InRange) (hst : n.mac.radioMacState = .rx)
    (hlong : 1 < (n.currentRxPacket 0).toNat) :
    (n.offerPacket.1.view, n.offerPacket.2) =
      n.view.take 2 (seqOf (n.currentRxPacket 1)) (txPacketOf n.currentRxPacket) := by
  have hroom : Ring.next rxPacketCount n.radioLinkRxInterruptIndex ≠ n.radioLinkRxMainLoopIndex ↔
      n.view.inbox.length < 2 := by
    have hlt := Ring.count_lt h.rxMain h.rxInterrupt
    have hfull := Ring.next_eq_iff_count (by decide) h.rxMain h.rxInterrupt
    change _ ↔ (Ring.contents _ _ _ _).length < 2
    rw [Ring.length_contents, ne_eq, hfull]
    simp only [rxPacketCount] at *
    omega
  unfold offerPacket Party.take
  by_cases hexp : n.acceptAnySequenceBit = true ∨
      n.rxSequenceBit ≠ seqOf (n.currentRxPacket 1)
  · have hexp' : n.view.Expects (seqOf (n.currentRxPacket 1)) := hexp
    rw [if_pos hexp, if_pos hexp']
    by_cases hr : Ring.next rxPacketCount n.radioLinkRxInterruptIndex ≠ n.radioLinkRxMainLoopIndex
    · rw [if_pos hr, if_pos (hroom.mp hr)]
      exact Prod.ext (view_acceptPacket h hst hlong hr) rfl
    · rw [if_neg hr, if_neg (fun hc => hr (hroom.mpr hc))]
  · have hexp' : ¬ n.view.Expects (seqOf (n.currentRxPacket 1)) := hexp
    rw [if_neg hexp, if_neg hexp']

theorem Loaded.offerPacket (hl : n.Loaded) (h : n.InRange) (hst : n.mac.radioMacState = .rx)
    (hlong : 1 < (n.currentRxPacket 0).toNat) : n.offerPacket.1.Loaded := by
  have hview := congrArg Prod.fst (view_offerPacket h hst hlong)
  have hqueue := (n.view.take_sender 2 (seqOf (n.currentRxPacket 1))
    (txPacketOf n.currentRxPacket)).queue
  rw [← hview] at hqueue
  intro p hp
  exact hl p (hqueue ▸ hp)

theorem view_handleData (h : n.InRange) (hl : n.Loaded) (hst : n.mac.radioMacState = .rx) :
    (n.handleData (n.currentRxPacket 0)).view =
      n.view.respond 2 (frameOf n.currentRxPacket).body := by
  unfold handleData frameOf
  by_cases hlong : 1 < (n.currentRxPacket 0).toNat
  · have hview := view_offerPacket h hst hlong
    rw [if_pos (show n.currentRxPacket 0 > 1 from UInt8.lt_iff_toNat_lt.mpr hlong), if_pos hlong,
      view_respond h.offerPacket (hl.offerPacket h hst hlong)]
    simp only [Party.respond, ← hview]
  · rw [if_neg (show ¬ n.currentRxPacket 0 > 1 from fun hc =>
      hlong (UInt8.lt_iff_toNat_lt.mp hc)), if_neg hlong, view_takeInitiative h hl]
    rfl

/-- The handler for a good frame is the protocol's step on that frame. -/
theorem view_handleGoodCrc (h : n.InRange) (hl : n.Loaded) (hst : n.mac.radioMacState = .rx) :
    n.handleGoodCrc.view = n.view.receive 2 (frameOf n.currentRxPacket) := by
  have hkind : (frameOf n.currentRxPacket).kind = kindOf (n.currentRxPacket 1) := rfl
  unfold handleGoodCrc Party.receive
  simp only [hkind, kindOf_eq_reset]
  split_ifs
  · exact view_handleReset
  · have hdata := view_handleData (h.heedAck (n.currentRxPacket 1))
      (hl.heedAck h (n.currentRxPacket 1)) (by rw [heedAck_mac]; exact hst)
    rw [heedAck_currentRxPacket] at hdata
    rw [hdata, view_heedAck h]

/-! ### Events -/

theorem Loaded.beforeHandler (hl : n.Loaded) : n.beforeHandler.Loaded := hl

theorem view_radioMacEvent (r : Readings) (e : MacEvent) :
    (n.radioMacEvent r e).view = (radioMacEventHandler r e n.beforeHandler).view := rfl

theorem view_radioMacEvent_tx (r : Readings) : (n.radioMacEvent r .tx).view = n.view.listen := rfl

theorem view_radioMacEvent_strobe (h : n.InRange) (hl : n.Loaded) (r : Readings) :
    (n.radioMacEvent r .strobe).view = n.view.initiate := by
  rw [view_radioMacEvent]
  exact view_takeInitiative h.beforeHandler hl.beforeHandler

theorem view_radioMacEvent_rxTimeout (h : n.InRange) (hl : n.Loaded) (r : Readings) :
    (n.radioMacEvent r .rxTimeout).view = n.view.initiate :=
  view_radioMacEvent_strobe h hl r

theorem view_radioMacEvent_badCrc {r : Readings} (hr : r.crcPassed = false) :
    (n.radioMacEvent r .rx).view = n.view.listen := by
  rw [view_radioMacEvent]
  simp only [radioMacEventHandler, hr, Bool.false_eq_true, if_false, handleBadCrc]
  split_ifs <;> rfl

theorem view_radioMacEvent_goodCrc (h : n.InRange) (hl : n.Loaded) {r : Readings}
    (hr : r.crcPassed = true) : (n.radioMacEvent r .rx).view =
      n.view.listen.receive 2 (frameOf n.currentRxPacket) := by
  rw [view_radioMacEvent]
  simp only [radioMacEventHandler, hr, if_true]
  exact view_handleGoodCrc h.beforeHandler hl.beforeHandler rfl

/-! ### The main loop and the DMA channel -/

/-- What is transmitted fits the receiver's buffer. -/
def Fits (n : Node) : Prop := ∀ buf, n.transmitting = some buf →
  1 ≤ (buf 0).toNat ∧ (buf 0).toNat ≤ maxPacketSize

theorem Consistent.fits (h : n.Consistent) (hl : n.Loaded) : n.Fits := by
  intro buf ht
  unfold transmitting at ht
  split_ifs at ht with hst
  obtain rfl := Option.some.inj ht
  rcases h.tx hst with ⟨-, hlen, hframe⟩ | ⟨-, hne, hframe⟩
  · rw [hframe, hlen]
    decide
  · obtain ⟨hmin, hmax⟩ := hl.head h.toInRange hne
    rw [hframe]
    exact ⟨Nat.le_of_lt hmin, hmax⟩

theorem view_dmaReceive (h : n.InRange) (hrx : n.ArmedRx) (bytes : List UInt8) :
    (n.dmaReceive bytes).view = n.view := by
  rcases hrx.dmaReceive_eq bytes with he | ⟨-, he⟩
  · rw [he]
  · rw [he]
    refine Party.ext rfl ?_ rfl rfl rfl rfl rfl rfl rfl
    exact Ring.contents_update rxPacketOf _ _ h.rxInterrupt

theorem currentRxPacket_dmaReceive (hrx : n.ArmedRx) (hst : n.mac.radioMacState = .rx)
    (bytes : List UInt8) : (n.dmaReceive bytes).currentRxPacket =
      dmaStore (maxPacketSize + 3) bytes n.currentRxPacket := by
  have he : n.dmaReceive bytes = n.setBuffer (dmaStore (maxPacketSize + 3) bytes
      (n.radioLinkRxPacket n.radioLinkRxInterruptIndex))
      (.radioLinkRxPacket n.radioLinkRxInterruptIndex) := by
    simp only [dmaReceive, hst, hrx hst, buffer]
  rw [he]
  exact Function.update_self _ _ _

/-- The packet under construction is not part of the queue. -/
theorem view_storeTx (h : n.InRange) (offset : ℕ) (b : UInt8) :
    (n.storeTx n.radioLinkTxMainLoopIndex offset b).view = n.view := by
  refine Party.ext ?_ rfl rfl rfl rfl rfl rfl rfl rfl
  exact Ring.contents_update txPacketOf _ _ h.txMain

theorem InRange.storeTx (h : n.InRange) (slot offset : ℕ) (b : UInt8) :
    (n.storeTx slot offset b).InRange :=
  ⟨h.rxMain, h.rxInterrupt, h.txMain, h.txInterrupt, h.pktlen⟩

theorem InRange.writeTxHeader (h : n.InRange) (t : UInt8) : (n.writeTxHeader t).InRange :=
  (h.storeTx _ _ _).storeTx _ _ _

theorem view_writeTxHeader (h : n.InRange) (t : UInt8) : (n.writeTxHeader t).view = n.view :=
  (view_storeTx (h.storeTx _ 0 _) _ _).trans (view_storeTx h _ _)

def populated (n : Node) (payloadType : UInt8) : Packet where
  payloadType := payloadType
  payload := payload (n.radioLinkTxPacket n.radioLinkTxMainLoopIndex)
    (n.radioLinkTxPacket n.radioLinkTxMainLoopIndex 1).toNat

theorem txPacketOf_writeTxHeader {t : UInt8} (ht : (n.populated t).Valid) :
    txPacketOf ((n.writeTxHeader t).radioLinkTxPacket n.radioLinkTxMainLoopIndex) =
      n.populated t := by
  obtain ⟨-, hlen, ht'⟩ := ht
  simp only [populated, length_payload, payloadSize] at hlen ht'
  have hadd : (n.radioLinkTxPacket n.radioLinkTxMainLoopIndex 1 + 1).toNat =
      (n.radioLinkTxPacket n.radioLinkTxMainLoopIndex 1).toNat + 1 := by
    rw [UInt8.toNat_add, UInt8.toNat_one]
    omega
  simp only [txPacketOf, writeTxHeader, storeTx, Function.update_self, populated,
    Function.update_of_ne (Nat.zero_ne_one), hadd, payloadType_shift ht']
  congr 1
  apply payload_congr
  intro i _
  rw [Function.update_of_ne (by omega), Function.update_of_ne (by omega)]

theorem view_advanceTxMainLoopIndex (h : n.InRange)
    (hfree : n.radioLinkTxCurrentPacket ≠ none) : n.advanceTxMainLoopIndex.view =
      n.view.enqueue (txPacketOf (n.radioLinkTxPacket n.radioLinkTxMainLoopIndex)) := by
  have hnext := (radioLinkTxCurrentPacket_ne_none h).mp hfree
  refine Party.ext ?_ rfl rfl rfl rfl rfl rfl ?_ ?_
  · exact Ring.contents_next_write _ h.txInterrupt h.txMain hnext
  · exact sent_record _
  · exact (accepted_record _).trans (List.append_nil _)

theorem view_sendPacket (h : n.InRange) (hfree : n.radioLinkTxCurrentPacket ≠ none)
    {t : UInt8} (ht : (n.populated t).Valid) :
    (n.writeTxHeader t).advanceTxMainLoopIndex.view = n.view.enqueue (n.populated t) := by
  have hview := view_advanceTxMainLoopIndex (h.writeTxHeader t) hfree
  have hpacket := txPacketOf_writeTxHeader ht
  rw [hview, view_writeTxHeader h]
  congr 1

theorem view_radioLinkRxDoneWithPacket (h : n.InRange) (howned : n.radioLinkRxCurrentPacket ≠ none) :
    n.radioLinkRxDoneWithPacket.view = n.view.release := by
  have hne := radioLinkRxCurrentPacket_ne_none.mp howned
  have hinbox := Ring.contents_cons (fun i => rxPacketOf (n.radioLinkRxPacket i)) h.rxMain
    h.rxInterrupt hne
  refine Party.ext rfl ?_ rfl rfl rfl rfl rfl ?_ ?_
  · change _ = List.tail (Ring.contents _ _ _ _)
    rw [hinbox]
    rfl
  · exact (sent_record _).trans (List.append_nil _)
  · exact (accepted_record _).trans (List.append_nil _)

theorem view_radioLinkTxQueueReset : n.radioLinkTxQueueReset.view = n.view.discard :=
  Party.ext (Ring.contents_self _) rfl rfl rfl rfl rfl rfl rfl rfl

end Node
end WixelSdk.RadioLink
