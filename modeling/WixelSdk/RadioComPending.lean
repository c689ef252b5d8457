import WixelSdk.RadioComRoom
import WixelSdk.RadioComSendRule

/-!
# What is still to be transmitted

`Pending channel bs c` says that the radio is tuned to `channel`, and that the bytes in the queued
packets and after them the bytes under construction are the last of `bs`. An interrupt transmits the
first queued packet only, and an acknowledgement removes it. `Confined bs` is about the frame that is
in transmission: it may be one of a packet that has left the queue.
-/

namespace WixelSdk.StopAndWait.Party

variable {α : Type*} (p : Party α)

theorem heed_queue (k : Kind) : (p.heed k).queue <:+ p.queue := by
  unfold heed acknowledge
  split_ifs
  · exact List.suffix_rfl
  · exact List.suffix_rfl
  · exact List.tail_suffix p.queue
  · exact List.suffix_rfl

theorem receive_queue (cap : ℕ) (f : Frame α) : (p.receive cap f).queue <:+ p.queue := by
  rw [(p.receive_sender cap f).queue]
  exact p.heed_queue f.kind

end WixelSdk.StopAndWait.Party

namespace WixelSdk.RadioLink
open RadioMac StopAndWait

namespace Node

variable {n m : Node}

/-! ### The channel -/

@[simp] theorem takeInitiative_channr (n : Node) : n.takeInitiative.channr = n.channr := by
  unfold takeInitiative
  split_ifs <;> rfl

@[simp] theorem respond_channr (n : Node) (k : Kind) : (n.respond k).channr = n.channr := by
  unfold respond
  split_ifs <;> rfl

@[simp] theorem heedAck_channr (n : Node) (header : UInt8) :
    (n.heedAck header).channr = n.channr := by
  unfold heedAck handleAck
  split_ifs <;> rfl

@[simp] theorem offerPacket_channr (n : Node) : n.offerPacket.1.channr = n.channr := by
  unfold offerPacket
  split_ifs <;> rfl

@[simp] theorem handleBadCrc_channr (n : Node) (random : UInt8) :
    (n.handleBadCrc random).channr = n.channr := by
  unfold handleBadCrc
  split_ifs <;> rfl

theorem handleGoodCrc_channr (n : Node) : n.handleGoodCrc.channr = n.channr := by
  unfold handleGoodCrc handleData
  split_ifs
  · rfl
  · rw [respond_channr, offerPacket_channr, heedAck_channr]
  · rw [takeInitiative_channr, heedAck_channr]

theorem radioMacEvent_channr (n : Node) (r : Readings) (e : MacEvent) :
    (n.radioMacEvent r e).channr = n.channr := by
  change (radioMacEventHandler r e n.beforeHandler).channr = n.beforeHandler.channr
  cases e with
  | tx => rfl
  | rx =>
      simp only [radioMacEventHandler]
      split_ifs
      · exact handleGoodCrc_channr _
      · exact handleBadCrc_channr _ _
  | rxTimeout => exact takeInitiative_channr _
  | strobe => exact takeInitiative_channr _

theorem setBuffer_channr (n : Node) (buf : Buf) (p : Buffer) :
    (n.setBuffer buf p).channr = n.channr := by
  cases p <;> rfl

theorem dmaReceive_channr (n : Node) (bytes : List UInt8) :
    (n.dmaReceive bytes).channr = n.channr := by
  unfold dmaReceive
  split
  · exact n.setBuffer_channr _ _
  · rfl

theorem interrupt_channr (n : Node) (i : Irq) : (n.interrupt i).channr = n.channr := by
  cases i with
  | dma bytes =>
      simp only [interrupt]
      split_ifs
      · exact n.dmaReceive_channr bytes
      · rfl
  | event e r =>
      simp only [interrupt]
      split_ifs
      · exact n.radioMacEvent_channr r e
      · rfl
  | errors h => rfl

/-! ### The queue -/

theorem Loaded.of_suffix (h : n.Loaded) (hq : m.view.queue <:+ n.view.queue) : m.Loaded :=
  fun p hp => h p (hq.subset hp)

theorem Loaded.congr (h : n.Loaded) (hv : m.view = n.view) : m.Loaded :=
  h.of_suffix (hv ▸ List.suffix_rfl)

theorem Loaded.append (h : n.Loaded) {p : Packet} (hp : p.Valid)
    (hq : m.view.queue <:+ n.view.queue ++ [p]) : m.Loaded := by
  intro q hmem
  rcases List.mem_append.mp (hq.subset hmem) with hmem | hmem
  · exact h q hmem
  · obtain rfl := List.mem_singleton.mp hmem
    exact ⟨hp.1, hp.2.1⟩

theorem queue_radioMacEvent (h : n.InRange) (hl : n.Loaded) (r : Readings) (e : MacEvent) :
    (n.radioMacEvent r e).view.queue <:+ n.view.queue ∧ (n.radioMacEvent r e).view.OnAir := by
  have hinitiate := n.view.initiate_sender.queue
  cases e with
  | tx =>
      rw [view_radioMacEvent_tx]
      exact ⟨List.suffix_rfl, n.view.onAir_listen⟩
  | rxTimeout =>
      rw [view_radioMacEvent_rxTimeout h hl, hinitiate]
      exact ⟨List.suffix_rfl, n.view.onAir_initiate⟩
  | strobe =>
      rw [view_radioMacEvent_strobe h hl, hinitiate]
      exact ⟨List.suffix_rfl, n.view.onAir_initiate⟩
  | rx =>
      by_cases hr : r.crcPassed = true
      · rw [view_radioMacEvent_goodCrc h hl hr]
        exact ⟨n.view.listen.receive_queue 2 _, n.view.listen.onAir_receive 2 _⟩
      · rw [view_radioMacEvent_badCrc (by simpa using hr)]
        exact ⟨List.suffix_rfl, n.view.onAir_listen⟩

theorem queue_interrupt (h : n.Serviceable) (hl : n.Loaded) (i : Irq) :
    (n.interrupt i).view.queue <:+ n.view.queue := by
  cases i with
  | dma bytes =>
      simp only [interrupt]
      split_ifs with hsrx
      · have hview := view_dmaReceive h.toInRange (h.tuned hsrx) bytes
        exact ⟨[], congrArg Party.queue hview⟩
      · exact List.suffix_rfl
  | event e r =>
      simp only [interrupt]
      split_ifs
      · exact (queue_radioMacEvent h.toInRange hl r e).1
      · exact List.suffix_rfl
  | errors f => exact List.suffix_rfl

def carried (n : Node) : Option Packet := n.view.air.bind fun f => f.body.map Prod.snd

theorem mem_queue_of_carried {p : Packet} (h : n.view.OnAir) (hp : n.carried = some p) :
    p ∈ n.view.queue := by
  obtain ⟨f, hair, hbody⟩ := Option.bind_eq_some_iff.mp hp
  obtain ⟨⟨b, x⟩, hbx, rfl⟩ := Option.map_eq_some_iff.mp hbody
  exact List.mem_of_mem_head? (h.body f b x hair hbx).2

end Node
end WixelSdk.RadioLink

namespace WixelSdk.RadioCom
open RadioMac RadioLink

theorem dataBytes_suffix {ps qs : List Packet} (h : ps <:+ qs) : dataBytes ps <:+ dataBytes qs := by
  obtain ⟨rs, rfl⟩ := h
  rw [dataBytes_append]
  exact List.suffix_append _ _

theorem infix_dataBytes {ps : List Packet} {p : Packet} (hp : p ∈ ps)
    (hdata : p.payloadType = payloadTypeData) : p.payload <:+: dataBytes ps := by
  obtain ⟨qs, rs, rfl⟩ := List.append_of_mem hp
  rw [dataBytes_append, dataBytes, dataBytes, List.flatMap_cons, if_pos hdata]
  exact ⟨_, _, List.append_assoc _ _ _⟩

end WixelSdk.RadioCom

namespace WixelSdk.RadioLink.Node
open RadioMac RadioCom

variable {n m : Node} {bs bs' : List UInt8}

/-- The frame that the radio transmits has no data but bytes that follow each other in `bs`. -/
def Confined (bs : List UInt8) (n : Node) : Prop :=
  ∀ p ∈ n.carried, p.payloadType = payloadTypeData → p.payload <:+: bs

instance (bs : List UInt8) (n : Node) : Decidable (n.Confined bs) :=
  inferInstanceAs (Decidable (∀ p ∈ n.carried, p.payloadType = payloadTypeData → _))

theorem Confined.congr (h : n.Confined bs) (hair : m.view.air = n.view.air) : m.Confined bs := by
  unfold Confined carried
  rw [hair]
  exact h

theorem Confined.mono (h : n.Confined bs) (hbs : bs <:+: bs') : n.Confined bs' :=
  fun p hp hdata => (h p hp hdata).trans hbs

/-- What an event transmits is queued. -/
theorem confined_radioMacEvent (h : n.InRange) (hl : n.Loaded) (hb : dataBytes n.view.queue <:+: bs)
    (r : Readings) (e : MacEvent) : (n.radioMacEvent r e).Confined bs := by
  obtain ⟨hqueue, hair⟩ := queue_radioMacEvent h hl r e
  intro p hp hdata
  have hmem := mem_queue_of_carried hair hp
  exact ((infix_dataBytes hmem hdata).trans (dataBytes_suffix hqueue).isInfix).trans hb

theorem Confined.interrupt (ha : n.Confined bs) (h : n.Serviceable) (hl : n.Loaded)
    (hb : dataBytes n.view.queue <:+: bs) (i : Irq) : (n.interrupt i).Confined bs := by
  cases i with
  | dma bytes =>
      simp only [Node.interrupt]
      split_ifs with hsrx
      · exact ha.congr (congrArg StopAndWait.Party.air
          (view_dmaReceive h.toInRange (h.tuned hsrx) bytes))
      · exact ha
  | event e r =>
      simp only [Node.interrupt]
      split_ifs
      · exact confined_radioMacEvent h.toInRange hl hb r e
      · exact ha
  | errors f => exact ha

theorem queue_interrupts (h : n.Serviceable) (hl : n.Loaded) (is : List Irq) :
    (is.foldl interrupt n).view.queue <:+ n.view.queue ∧
      (is.foldl interrupt n).channr = n.channr ∧
      ∀ bs, dataBytes n.view.queue <:+: bs → n.Confined bs → (is.foldl interrupt n).Confined bs := by
  induction is generalizing n with
  | nil => exact ⟨List.suffix_rfl, rfl, fun _ _ ha => ha⟩
  | cons i is ih =>
      have hq := queue_interrupt h hl i
      obtain ⟨hqueue, hchannr, hair⟩ := ih (h.interrupt i).2 (hl.of_suffix hq)
      refine ⟨hqueue.trans hq, hchannr.trans (n.interrupt_channr i), fun bs hb ha => ?_⟩
      exact hair bs ((dataBytes_suffix hq).isInfix.trans hb) (ha.interrupt h hl hb i)

end WixelSdk.RadioLink.Node

namespace WixelSdk.RadioCom
open RadioMac RadioLink

namespace Com

variable {channel : UInt8} {bs : List UInt8} {c d : Com}

structure Pending (channel : UInt8) (bs : List UInt8) (c : Com) : Prop where
  serviceable : c.link.Serviceable
  tuned : c.link.channr = channel
  loaded : c.link.Loaded
  bytes : dataBytes c.link.view.queue ++ c.loadedBytes <:+ bs

theorem Pending.still (h : Pending channel bs c) (hs : Still c d)
    (hq : d.link.view.queue <:+ c.link.view.queue) (hc : d.link.channr = c.link.channr) :
    Pending channel bs d where
  serviceable := hs.serviceable
  tuned := hc.trans h.tuned
  loaded := h.loaded.of_suffix hq
  bytes := by
    rw [hs.loadedBytes]
    exact ((List.suffix_append_inj_of_length_eq rfl).mpr ⟨dataBytes_suffix hq, rfl⟩).trans h.bytes

theorem Pending.interrupt (h : Pending channel bs c) : Pending channel bs c.interrupt := by
  obtain ⟨hq, hc, -⟩ := Node.queue_interrupts h.serviceable h.loaded (c.interrupts.headD [])
  exact h.still (still_interrupt h.serviceable) hq hc

theorem Pending.queue (h : Pending channel bs c) : dataBytes c.link.view.queue <:+: bs :=
  (List.prefix_append _ c.loadedBytes).isInfix.trans h.bytes.isInfix

theorem Pending.confined_interrupt (h : Pending channel bs c) (ha : c.link.Confined bs) :
    c.interrupt.link.Confined bs :=
  (Node.queue_interrupts h.serviceable h.loaded (c.interrupts.headD [])).2.2 bs h.queue ha

theorem Pending.noticeReset (h : Pending channel bs c) : Pending channel bs c.noticeReset :=
  noticeReset_preserves (fun _ h => h.interrupt)
    (fun _ h => ⟨serviceable_clearResetPacketReceived h.serviceable, h.tuned, h.loaded, h.bytes⟩)
    (fun _ h => ⟨h.serviceable, h.tuned, h.loaded, h.bytes⟩) h

theorem Pending.confined_noticeReset (h : Pending channel bs c) (ha : c.link.Confined bs) :
    c.noticeReset.link.Confined bs :=
  (noticeReset_preserves (I := fun c => Pending channel bs c ∧ c.link.Confined bs)
    (fun _ h => ⟨h.1.interrupt, h.1.confined_interrupt h.2⟩)
    (fun _ h => ⟨⟨serviceable_clearResetPacketReceived h.1.serviceable, h.1.tuned, h.1.loaded,
      h.1.bytes⟩, h.2⟩)
    (fun _ h => ⟨⟨h.1.serviceable, h.1.tuned, h.1.loaded, h.1.bytes⟩, h.2⟩) ⟨h, ha⟩).2

/-! ### Sending a packet -/

theorem queue_radioLinkTxSendPacket (h : c.link.Serviceable) (hl : c.link.Loaded)
    (hfree : c.link.radioLinkTxQueued < 15) {t : UInt8} (ht : (c.link.populated t).Valid) :
    (c.radioLinkTxSendPacket t).link.view.queue <:+ c.link.view.queue ++ [c.link.populated t] ∧
      (c.radioLinkTxSendPacket t).link.channr = c.link.channr ∧
      ∀ bs, dataBytes (c.link.view.queue ++ [c.link.populated t]) <:+: bs → c.link.Confined bs →
        (c.radioLinkTxSendPacket t).link.Confined bs := by
  have hw : (c.writeTxHeader t).link.Serviceable := h.writeTxHeader t
  have hview : (c.writeTxHeader t).link.view = c.link.view :=
    Node.view_writeTxHeader h.toInRange t
  have hlw : (c.writeTxHeader t).link.Loaded := hl.congr hview
  obtain ⟨hserves, hs⟩ := serves_interrupt hw
  obtain ⟨hq, hc, ha⟩ := Node.queue_interrupts hw hlw ((c.writeTxHeader t).interrupts.headD [])
  have hpacket := txPacketOf_interrupt h ht
  have hcurrent : (c.writeTxHeader t).interrupt.link.radioLinkTxCurrentPacket ≠ none := by
    have hsum := (c.writeTxHeader t).interrupt.link.radioLinkTxAvailable_add_queued
    have hlt : (c.writeTxHeader t).interrupt.link.radioLinkTxQueued < 15 :=
      Nat.lt_of_le_of_lt hserves.queued hfree
    have havail : (c.writeTxHeader t).interrupt.link.radioLinkTxAvailable ≠ 0 := by omega
    simp [Node.radioLinkTxCurrentPacket, havail]
  have hadvance := Node.view_advanceTxMainLoopIndex hs.toInRange hcurrent
  rw [hpacket] at hadvance
  have hqueue : ((c.writeTxHeader t).interrupt.advanceTxMainLoopIndex).link.view.queue <:+
      c.link.view.queue ++ [c.link.populated t] := by
    change (c.writeTxHeader t).interrupt.link.advanceTxMainLoopIndex.view.queue <:+ _
    rw [hadvance]
    rw [hview] at hq
    exact (List.suffix_append_inj_of_length_eq rfl).mpr ⟨hq, rfl⟩
  obtain ⟨hq', hc', ha'⟩ := Node.queue_interrupts hs.advanceTxMainLoopIndex (hl.append ht hqueue)
    ((c.writeTxHeader t).interrupt.advanceTxMainLoopIndex.interrupts.headD [])
  refine ⟨hq'.trans hqueue, hc'.trans hc, fun bs hb hair => ?_⟩
  have hold : dataBytes c.link.view.queue <:+: bs := by
    rw [dataBytes_append] at hb
    exact (List.prefix_append _ _).isInfix.trans hb
  have hsame : (c.writeTxHeader t).interrupt.link.advanceTxMainLoopIndex.view.air =
      (c.writeTxHeader t).interrupt.link.view.air := by
    rw [hadvance]
    rfl
  have hwritten : (c.writeTxHeader t).link.Confined bs := hair.congr (congrArg _ hview)
  exact ha' bs ((dataBytes_suffix hqueue).isInfix.trans hb)
    ((ha bs (hview ▸ hold) hwritten).congr hsame)

theorem queue_radioComSendDataNow (h : Pending channel bs c) (ho : Open c)
    (hl : c.txBytesLoaded ≠ 0) :
    c.radioComSendDataNow.link.view.queue <:+
        c.link.view.queue ++ [⟨payloadTypeData, c.loadedBytes⟩] ∧
      c.radioComSendDataNow.link.channr = c.link.channr ∧
      (c.link.Confined bs → c.radioComSendDataNow.link.Confined bs) := by
  have hvalid := ho.valid hl
  have hview := Node.view_storeTx h.serviceable.toInRange 1 c.txBytesLoaded
  have hlength : c.radioComSendDataNow.link = (radioLinkTxSendPacket { c with
      link := c.link.storeTx c.link.radioLinkTxMainLoopIndex 1 c.txBytesLoaded }
      payloadTypeData).link := by
    unfold Com.radioComSendDataNow
    rw [ho.store_length]
  rw [← populated_storeTx] at hvalid
  obtain ⟨hq, hc, ha⟩ := queue_radioLinkTxSendPacket (c := { c with
    link := c.link.storeTx c.link.radioLinkTxMainLoopIndex 1 c.txBytesLoaded })
    (h.serviceable.storeTx _ _ _) (h.loaded.congr hview) ho.free hvalid
  rw [← hlength] at hq hc ha
  rw [hview, populated_storeTx] at hq ha
  have hloaded : dataBytes [⟨payloadTypeData, c.loadedBytes⟩] = c.loadedBytes := List.append_nil _
  refine ⟨hq, hc, fun hair => ha bs ?_ (hair.congr (congrArg _ hview))⟩
  rw [dataBytes_append, hloaded]
  exact h.bytes.isInfix

theorem Pending.radioComSendDataNow (h : Pending channel bs c) (ho : Open c)
    (hl : c.txBytesLoaded ≠ 0) : Pending channel bs c.radioComSendDataNow := by
  obtain ⟨hq, hc, -⟩ := queue_radioComSendDataNow h ho hl
  have hloaded : dataBytes [⟨payloadTypeData, c.loadedBytes⟩] = c.loadedBytes := List.append_nil _
  refine ⟨(queues_radioComSendDataNow ho hl).serviceable, hc.trans h.tuned,
    h.loaded.append (ho.valid hl) hq, ?_⟩
  have hsuffix := dataBytes_suffix hq
  rw [dataBytes_append, hloaded] at hsuffix
  rw [loadedBytes_eq_nil (c := c.radioComSendDataNow) rfl, List.append_nil]
  exact hsuffix.trans h.bytes

theorem Pending.startPacket (h : Pending channel bs c) : Pending channel bs c.startPacket := by
  unfold Com.startPacket
  split_ifs
  · exact Pending.interrupt ⟨h.serviceable, h.tuned, h.loaded, h.bytes⟩
  · exact h

theorem Pending.confined_startPacket (h : Pending channel bs c) (ha : c.link.Confined bs) :
    c.startPacket.link.Confined bs := by
  unfold Com.startPacket
  split_ifs
  · have hstart : Pending channel bs { c with
        txPointer := c.radioLinkTxCurrentPacket
        packetPointer := c.radioLinkTxCurrentPacket } :=
      ⟨h.serviceable, h.tuned, h.loaded, h.bytes⟩
    exact hstart.confined_interrupt ha
  · exact ha

theorem Pending.appendByte (h : Pending channel bs c) (ho : Open c)
    (hshort : c.txBytesLoaded.toNat < payloadSize) (byte : UInt8) :
    Pending channel (bs ++ [byte]) (c.appendByte byte) := by
  obtain ⟨hopen, -, hbytes, -⟩ := appendByte_spec ho hshort byte
  have hview : (c.appendByte byte).link.view = c.link.view := by
    rw [ho.appendByte_eq byte]
    exact Node.view_storeTx h.serviceable.toInRange _ _
  refine ⟨hopen.serviceable, ?_, h.loaded.congr hview, ?_⟩
  · rw [ho.appendByte_eq byte]
    exact h.tuned
  · rw [hview, hbytes, ← List.append_assoc]
    exact (List.suffix_append_inj_of_length_eq rfl).mpr ⟨h.bytes, rfl⟩

theorem Pending.confined_appendByte (h : Pending channel bs c) (ho : Open c) (byte : UInt8)
    (ha : c.link.Confined bs) : (c.appendByte byte).link.Confined (bs ++ [byte]) := by
  have hview : (c.appendByte byte).link.view = c.link.view := by
    rw [ho.appendByte_eq byte]
    exact Node.view_storeTx h.serviceable.toInRange _ _
  exact (ha.congr (congrArg _ hview)).mono (List.prefix_append _ _).isInfix

theorem Pending.radioComTxSendByte (h : Pending channel bs c) (hb : Building c)
    (hroom : c.txBytesLoaded ≠ 0 ∨ c.link.radioLinkTxQueued < 15) (byte : UInt8) :
    Pending channel (bs ++ [byte]) (c.radioComTxSendByte byte) := by
  obtain ⟨hopen, hloaded, -⟩ := startPacket_spec hb hroom
  have hshort : c.startPacket.txBytesLoaded.toNat < payloadSize := by
    rw [hloaded]
    exact hb.short
  have happend := h.startPacket.appendByte hopen hshort byte
  obtain ⟨hopen', -⟩ := appendByte_spec hopen hshort byte
  unfold Com.radioComTxSendByte
  split_ifs with hfull
  · have hi := still_interrupt hopen'.serviceable
    refine happend.interrupt.radioComSendDataNow (hopen'.still hi) ?_
    rw [hi.txBytesLoaded, hfull]
    decide
  · exact happend

theorem Pending.confined_radioComTxSendByte (h : Pending channel bs c) (hb : Building c)
    (hroom : c.txBytesLoaded ≠ 0 ∨ c.link.radioLinkTxQueued < 15) (byte : UInt8)
    (ha : c.link.Confined bs) : (c.radioComTxSendByte byte).link.Confined (bs ++ [byte]) := by
  obtain ⟨hopen, hloaded, -⟩ := startPacket_spec hb hroom
  have hshort : c.startPacket.txBytesLoaded.toNat < payloadSize := by
    rw [hloaded]
    exact hb.short
  have happend := h.startPacket.appendByte hopen hshort byte
  have hair := h.startPacket.confined_appendByte hopen byte (h.confined_startPacket ha)
  obtain ⟨hopen', -⟩ := appendByte_spec hopen hshort byte
  unfold Com.radioComTxSendByte
  split_ifs with hfull
  · have hi := still_interrupt hopen'.serviceable
    have hne : (c.startPacket.appendByte byte).interrupt.txBytesLoaded ≠ 0 := by
      rw [hi.txBytesLoaded, hfull]
      decide
    exact (queue_radioComSendDataNow happend.interrupt (hopen'.still hi) hne).2.2
      (happend.confined_interrupt hair)
  · exact hair

/-! ### Without control signals -/

structure Calm (channel : UInt8) (bs : List UInt8) (c : Com) : Prop where
  building : Building c
  pending : Pending channel bs c
  quiet : c.sendSignalsSoon = false

theorem Calm.still (h : Calm channel bs c) (hs : Still c d)
    (hq : d.link.view.queue <:+ c.link.view.queue) (hc : d.link.channr = c.link.channr)
    (hsoon : d.sendSignalsSoon = c.sendSignalsSoon) : Calm channel bs d :=
  ⟨h.building.still hs, h.pending.still hs hq hc, hsoon.trans h.quiet⟩

theorem Calm.interrupt (h : Calm channel bs c) : Calm channel bs c.interrupt :=
  ⟨h.building.still (still_interrupt h.pending.serviceable), h.pending.interrupt, h.quiet⟩

theorem Calm.schedule (h : Calm channel bs c) (is : List (List Irq)) :
    Calm channel bs (c.schedule is) :=
  h.still (still_schedule h.pending.serviceable is) List.suffix_rfl rfl rfl

theorem rxParts_calm (channel : UInt8) (bs : List UInt8) : RxParts (Calm channel bs) where
  interrupt _ h := h.interrupt
  load _ _ h := h.still (.of_rx h.pending.serviceable _ _ _ _) List.suffix_rfl rfl rfl
  note _ _ h := h.still (.of_rx h.pending.serviceable _ _ _ _) List.suffix_rfl rfl rfl
  done _ h := h.still (.of_link h.pending.serviceable.radioLinkRxDoneWithPacket
    (Node.txQuiet_radioLinkRxDoneWithPacket _) _ _) List.suffix_rfl rfl rfl
  advance _ h := h.still (.of_rx h.pending.serviceable _ _ _ _) List.suffix_rfl rfl rfl

theorem rxParts_confined (channel : UInt8) (bs : List UInt8) :
    RxParts fun c => Calm channel bs c ∧ c.link.Confined bs where
  interrupt _ h := ⟨h.1.interrupt, h.1.pending.confined_interrupt h.2⟩
  load _ _ h := ⟨(rxParts_calm channel bs).load _ _ h.1, h.2⟩
  note _ _ h := ⟨(rxParts_calm channel bs).note _ _ h.1, h.2⟩
  done _ h := ⟨(rxParts_calm channel bs).done _ h.1, h.2⟩
  advance _ h := ⟨(rxParts_calm channel bs).advance _ h.1, h.2⟩

theorem radioComTxService_of_quiet (hquiet : c.noticeReset.sendSignalsSoon = false) :
    c.radioComTxService = if c.noticeReset.txBytesLoaded ≠ 0 ∧
      c.noticeReset.link.radioLinkTxQueued ≤ txQueueThreshold then
        c.noticeReset.interrupt.radioComSendDataNow
      else c.noticeReset := by
  unfold Com.radioComTxService
  rw [hquiet, if_neg Bool.false_ne_true]

theorem Calm.radioComTxService (h : Calm channel bs c)
    (hquiet : c.noticeReset.sendSignalsSoon = false) : Calm channel bs c.radioComTxService := by
  have hnotice : Calm channel bs c.noticeReset :=
    ⟨h.building.still (still_noticeReset h.pending.serviceable), h.pending.noticeReset, hquiet⟩
  have hi := hnotice.interrupt
  rw [radioComTxService_of_quiet hquiet]
  split_ifs with hl
  · exact ⟨hi.building.queues (queues_radioComSendDataNow (hi.building.packet hl.1) hl.1) rfl,
      hi.pending.radioComSendDataNow (hi.building.packet hl.1) hl.1,
      (radioComSendDataNow_sendSignalsSoon _).trans hi.quiet⟩
  · exact hnotice

theorem Calm.confined_radioComTxService (h : Calm channel bs c)
    (hquiet : c.noticeReset.sendSignalsSoon = false) (ha : c.link.Confined bs) :
    c.radioComTxService.link.Confined bs := by
  have hnotice : Calm channel bs c.noticeReset :=
    ⟨h.building.still (still_noticeReset h.pending.serviceable), h.pending.noticeReset, hquiet⟩
  have hair := h.pending.confined_noticeReset ha
  rw [radioComTxService_of_quiet hquiet]
  split_ifs with hl
  · have hi := hnotice.interrupt
    exact (queue_radioComSendDataNow hi.pending (hi.building.packet hl.1) hl.1).2.2
      (hnotice.pending.confined_interrupt hair)
  · exact hair

/-- With at most one packet queued or under construction, none is under construction afterwards. -/
theorem Calm.radioComTxService_flushes (h : Calm channel bs c)
    (hquiet : c.noticeReset.sendSignalsSoon = false)
    (hone : c.link.radioLinkTxQueued + c.underConstruction ≤ 1) :
    c.radioComTxService.txBytesLoaded = 0 ∧ c.radioComTxService.link.radioLinkTxQueued ≤
      c.link.radioLinkTxQueued + c.underConstruction := by
  have hstill := still_noticeReset h.pending.serviceable
  have hqueued := hstill.link.queued
  rw [radioComTxService_of_quiet hquiet]
  split_ifs with hl
  · have hi := hstill.trans (still_interrupt hstill.serviceable)
    have hq := queues_radioComSendDataNow ((h.building.still hi).packet hl.1) hl.1
    have hone' : c.underConstruction = 1 := by
      rw [hstill.txBytesLoaded] at hl
      exact if_pos hl.1
    refine ⟨rfl, Nat.le_trans hq.queued ?_⟩
    rw [hone']
    exact Nat.succ_le_succ hi.link.queued
  · have hzero : c.noticeReset.txBytesLoaded = 0 := by
      by_contra hl'
      exact hl ⟨hl', Nat.le_trans hqueued (Nat.le_trans (Nat.le_add_right _ _) hone)⟩
    exact ⟨hzero, Nat.le_trans hqueued (Nat.le_add_right _ _)⟩

theorem Calm.radioComTxSendByte (h : Calm channel bs c)
    (hroom : c.txBytesLoaded ≠ 0 ∨ c.link.radioLinkTxQueued < 15) (byte : UInt8) :
    Calm channel (bs ++ [byte]) (c.radioComTxSendByte byte) :=
  ⟨h.building.radioComTxSendByte hroom byte, h.pending.radioComTxSendByte h.building hroom byte,
    (radioComTxSendByte_sendSignalsSoon c byte).trans h.quiet⟩

/-- Both rings are empty on the new channel. -/
theorem Calm.radioLinkChangeChannel (h : Calm channel bs c) (hl : c.txBytesLoaded = 0)
    (v : UInt8) : Calm v [] (c.radioLinkChangeChannel v) := by
  have hs := still_radioLinkChangeChannel h.pending.serviceable v
  have hqueue : (c.radioLinkChangeChannel v).link.view.queue = [] := Ring.contents_self _
  refine ⟨h.building.still hs, ⟨hs.serviceable, rfl, ?_, ?_⟩, h.quiet⟩
  · intro p hp
    rw [hqueue] at hp
    cases hp
  · rw [hqueue, loadedBytes_eq_nil (c := c.radioLinkChangeChannel v) hl]
    exact List.suffix_rfl

def radioLinkTxQueueReset (c : Com) : Com := { c with link := c.link.radioLinkTxQueueReset }

theorem radioLinkTxQueued_radioLinkTxQueueReset (c : Com) :
    c.radioLinkTxQueueReset.link.radioLinkTxQueued = 0 := by
  change (((c.link.radioLinkTxMainLoopIndex : ℤ) - c.link.radioLinkTxMainLoopIndex) %
    txPacketCount).toNat = 0
  simp

theorem Calm.radioLinkTxQueueReset (h : Calm channel bs c) :
    Calm channel bs c.radioLinkTxQueueReset := by
  have hin := h.pending.serviceable.toInRange
  have hin' : c.link.radioLinkTxQueueReset.InRange :=
    ⟨hin.rxMain, hin.rxInterrupt, hin.txMain, hin.txMain, hin.pktlen⟩
  have hqueued := c.radioLinkTxQueued_radioLinkTxQueueReset
  have hs : Still c c.radioLinkTxQueueReset :=
    .of_link (c := c) ⟨hin', h.pending.serviceable.tuned⟩
      ⟨rfl, rfl, Nat.le_trans (Nat.le_of_eq hqueued) (Nat.zero_le _), [],
        (List.append_nil _).symm, by simp⟩ _ _
  have hq : c.radioLinkTxQueueReset.link.view.queue <:+ c.link.view.queue := by
    change c.link.radioLinkTxQueueReset.view.queue <:+ _
    rw [Node.view_radioLinkTxQueueReset]
    exact List.nil_suffix
  exact h.still hs hq rfl rfl

end Com
end WixelSdk.RadioCom
