import WixelSdk.RadioComRules

/-!
# The packet being read

`Reading` says what holds of the receive side between two calls: while bytes are left, the first
packet of the ring is the data packet being read, and the RX pointer points to the first byte left of
it. `unread` lists what remains of the accepted packets, and `view` looks at the receive side as a
reader of a stream: everything that the functions do is a sequence of moves of that reader.
-/

namespace WixelSdk.RadioLink.Node
open RadioMac StopAndWait

variable {n m : Node} {p : Packet} {ps : List Packet}

/-- The first packet of the ring is in the current RX buffer. -/
theorem inbox_cons (h : n.InRange) (hin : n.view.inbox = p :: ps) :
    n.radioLinkRxCurrentPacket = some n.radioLinkRxMainLoopIndex ∧
      p = rxPacketOf (n.radioLinkRxPacket n.radioLinkRxMainLoopIndex) := by
  have hne : n.radioLinkRxMainLoopIndex ≠ n.radioLinkRxInterruptIndex := by
    intro he
    have hnil : n.view.inbox = [] := by
      change Ring.contents _ _ _ _ = _
      rw [← he, Ring.contents_self]
    rw [hnil] at hin
    cases hin
  have hcons := Ring.contents_cons (fun i => rxPacketOf (n.radioLinkRxPacket i)) h.rxMain
    h.rxInterrupt hne
  refine ⟨if_neg hne, ?_⟩
  exact (List.cons.inj (hin.symm.trans hcons)).1

theorem inbox_of_current {slot : ℕ} (h : n.InRange) (hslot : n.radioLinkRxCurrentPacket = some slot) :
    slot = n.radioLinkRxMainLoopIndex ∧
      ∃ ps, n.view.inbox = rxPacketOf (n.radioLinkRxPacket n.radioLinkRxMainLoopIndex) :: ps := by
  unfold radioLinkRxCurrentPacket at hslot
  split_ifs at hslot with hne
  exact ⟨(Option.some.inj hslot).symm, _, Ring.contents_cons _ h.rxMain h.rxInterrupt hne⟩

theorem inbox_radioLinkRxDoneWithPacket (h : n.InRange) (hin : n.view.inbox = p :: ps) :
    n.radioLinkRxDoneWithPacket.view.inbox = ps := by
  have hview := view_radioLinkRxDoneWithPacket h (by rw [(inbox_cons h hin).1]; exact nofun)
  rw [hview]
  change n.view.inbox.tail = ps
  rw [hin, List.tail_cons]

theorem rxOwned_eq_length : n.rxOwned = n.view.inbox.length := (Ring.length_contents _).symm

end WixelSdk.RadioLink.Node

namespace WixelSdk.RadioCom
open RadioMac RadioLink Transition InBand

namespace Com

/-- What was accepted and has not been read: the packets in the ring, the first one without the bytes
that have been read. -/
def unread (c : Com) : List Packet :=
  match c.link.view.inbox with
  | [] => []
  | p :: ps =>
      if c.rxBytesLeft = 0 then p :: ps
      else ⟨p.payloadType, p.payload.drop (p.payload.length - c.rxBytesLeft.toNat)⟩ :: ps

/-- The receive side as a reader whose caller has been told `told`. -/
def view (c : Com) (told : List (Item UInt8 UInt8)) : Reader UInt8 UInt8 where
  accepted := items c.link.accepted
  unread := items c.unread
  signal := c.radioComRxSignals
  reported := c.lastRxSignals
  output := told

structure Reading (c : Com) : Prop where
  serviceable : c.link.Serviceable
  packet : c.rxBytesLeft ≠ 0 → ∃ p ps, c.link.view.inbox = p :: ps ∧
    p.payloadType = payloadTypeData ∧ c.rxBytesLeft.toNat ≤ p.payload.length ∧
    c.rxPointer = some (c.link.radioLinkRxMainLoopIndex,
      2 + (p.payload.length - c.rxBytesLeft.toNat))
  reported : c.rxBytesLeft ≠ 0 → c.waitingToReportRxSignals = false
  data : ∀ p ∈ c.link.view.inbox, p.payload ≠ []
  accepted : ∀ p ∈ c.link.view.inbox, p ∈ c.link.accepted
  owned : ∀ k p, .released k p ∈ c.link.history → k ≠ 0

/-- Nothing happened on the receive side, except that packets were accepted. -/
structure RxStill (c d : Com) : Prop where
  serviceable : d.link.Serviceable
  link : Node.RxQuiet c.link d.link
  radioComRxEnforceOrdering : d.radioComRxEnforceOrdering = c.radioComRxEnforceOrdering
  rxBytesLeft : d.rxBytesLeft = c.rxBytesLeft
  rxPointer : d.rxPointer = c.rxPointer
  radioComRxSignals : d.radioComRxSignals = c.radioComRxSignals
  lastRxSignals : d.lastRxSignals = c.lastRxSignals

variable {c d e : Com}

/-- Only the link changes. -/
theorem RxStill.of_link {n : Node} (hs : n.Serviceable) (h : Node.RxQuiet c.link n)
    (is : List (List Irq)) (ps : List (Node × Irq)) :
    RxStill c { c with link := n, interrupts := is, passed := ps } :=
  ⟨hs, h, rfl, rfl, rfl, rfl, rfl⟩

/-- Only variables of the transmit side change. -/
theorem RxStill.of_tx (hs : c.link.Serviceable) (loaded : UInt8) (p q : Pointer) (v : UInt8)
    (soon : Bool) : RxStill c { c with
      txBytesLoaded := loaded, txPointer := p, packetPointer := q, radioComTxSignals := v,
      sendSignalsSoon := soon } :=
  ⟨hs, .refl _, rfl, rfl, rfl, rfl, rfl⟩

theorem RxStill.refl (h : c.link.Serviceable) : RxStill c c :=
  .of_link h (.refl _) c.interrupts c.passed

theorem RxStill.trans (h : RxStill c d) (h' : RxStill d e) : RxStill c e :=
  ⟨h'.serviceable, h.link.trans h'.link,
    h'.radioComRxEnforceOrdering.trans h.radioComRxEnforceOrdering,
    h'.rxBytesLeft.trans h.rxBytesLeft, h'.rxPointer.trans h.rxPointer,
    h'.radioComRxSignals.trans h.radioComRxSignals, h'.lastRxSignals.trans h.lastRxSignals⟩

theorem rxStill_interrupt (h : c.link.Serviceable) : RxStill c c.interrupt :=
  .of_link (serves_interrupt h).2 (serves_interrupt h).1.rxQuiet _ _

theorem rxStill_interrupts (h : c.link.Serviceable) (is : List Irq) :
    RxStill c { c with
      link := is.foldl Node.interrupt c.link, passed := c.passed ++ c.link.visits is } :=
  .of_link (h.interrupts is).2 (h.interrupts is).1.rxQuiet _ _

theorem rxStill_schedule (h : c.link.Serviceable) (is : List (List Irq)) :
    RxStill c (c.schedule is) := .of_link h (.refl _) is _

/-! ### The transmit side does not disturb the receive side -/

theorem rxStill_noticeReset (h : c.link.Serviceable) : RxStill c c.noticeReset := by
  refine noticeReset_preserves (I := RxStill c)
    (fun _ hd => hd.trans (rxStill_interrupt hd.serviceable)) (fun d hd => hd.trans ?_)
    (fun d hd => hd.trans ?_) (.refl h)
  · exact .of_link (c := d) (serviceable_clearResetPacketReceived hd.serviceable)
      (.of_events rfl ⟨[], (List.append_nil _).symm, by simp⟩ rfl) _ _
  · exact .of_tx hd.serviceable _ _ _ _ _

theorem linkRule_rxStill (c : Com) : LinkRule (RxStill c) where
  interrupt _ h := h.trans (rxStill_interrupt h.serviceable)
  store _ _ _ _ h := h.trans
    (.of_link (h.serviceable.storeTx _ _ _) (Node.rxQuiet_storeTx _ _ _ _) _ _)
  advance _ h := h.trans (.of_link h.serviceable.advanceTxMainLoopIndex
    (Node.rxQuiet_advanceTxMainLoopIndex _) _ _)
  strobe d h := h.trans (.of_link (c := d) h.serviceable.radioMacStrobe
    (.of_events rfl ⟨[], (List.append_nil _).symm, by simp⟩ rfl) _ _)
  loaded _ _ h := h.trans (.of_tx h.serviceable _ _ _ _ _)
  pointers _ _ _ h := h.trans (.of_tx h.serviceable _ _ _ _ _)

theorem rxStill_radioComSendControlSignalsNow (h : c.link.Serviceable) :
    RxStill c c.radioComSendControlSignalsNow := by
  have hrule := linkRule_rxStill c
  have hstore := hrule.storeAt (hrule.storeAt (.refl h) c.radioLinkTxCurrentPacket 0 1)
    c.radioLinkTxCurrentPacket 1 c.radioComTxSignals
  have hwrite : RxStill c (c.writeSignals c.radioLinkTxCurrentPacket) :=
    hstore.trans (.of_tx hstore.serviceable _ _ _ _ _)
  exact hrule.radioLinkTxSendPacket (hrule.interrupt _ hwrite) payloadTypeControlSignals

theorem txRule_rxStill (c : Com) : TxRule (RxStill c) where
  serviceable _ h := h.serviceable
  interrupt _ h := h.trans (rxStill_interrupt h.serviceable)
  notice _ h := h.trans (rxStill_noticeReset h.serviceable)
  data _ h _ := (linkRule_rxStill c).radioComSendDataNow h
  signals _ h _ _ := h.trans (rxStill_radioComSendControlSignalsNow h.serviceable)

theorem rxStill_radioComTxControlSignals (h : c.link.Serviceable) (v : UInt8) :
    RxStill c (c.radioComTxControlSignals v) := by
  unfold Com.radioComTxControlSignals
  split_ifs
  · have hrequest : RxStill c (c.requestSignals v) := .of_tx h _ _ _ _ _
    exact (txRule_rxStill c).radioComTxService hrequest
  · exact .refl h

/-! ### What remains to be read -/

theorem unread_of_done (h : c.rxBytesLeft = 0) : c.unread = c.link.view.inbox := by
  unfold unread
  cases c.link.view.inbox with
  | nil => rfl
  | cons p ps => exact if_pos h

theorem unread_of_reading {p : Packet} {ps : List Packet} (hl : c.rxBytesLeft ≠ 0)
    (hin : c.link.view.inbox = p :: ps) : c.unread =
      ⟨p.payloadType, p.payload.drop (p.payload.length - c.rxBytesLeft.toNat)⟩ :: ps := by
  unfold unread
  rw [hin]
  exact if_neg hl

theorem RxStill.arrives (h : RxStill c d) : ∃ qs, d.link.accepted = c.link.accepted ++ qs ∧
    d.link.view.inbox = c.link.view.inbox ++ qs ∧ ∀ p ∈ qs, p.payload ≠ [] := by
  obtain ⟨es, hes, -, hdata, hin⟩ := h.link.events
  refine ⟨_, ?_, hin, hdata⟩
  rw [Node.accepted, hes, List.filterMap_append]
  rfl

theorem RxStill.waiting (h : RxStill c d) :
    d.waitingToReportRxSignals = c.waitingToReportRxSignals := by
  unfold waitingToReportRxSignals
  rw [h.radioComRxEnforceOrdering, h.radioComRxSignals, h.lastRxSignals]

theorem RxStill.owned (h : RxStill c d) (hc : ∀ k p, .released k p ∈ c.link.history → k ≠ 0) :
    ∀ k p, .released k p ∈ d.link.history → k ≠ 0 := by
  obtain ⟨es, hes, hnone, -⟩ := h.link.events
  intro k p hmem
  rw [hes] at hmem
  rcases List.mem_append.mp hmem with hmem | hmem
  · exact hc k p hmem
  · cases hnone _ hmem

theorem Reading.still (h : Reading c) (h' : RxStill c d) : Reading d := by
  obtain ⟨qs, hacc, hin, hdata⟩ := h'.arrives
  refine ⟨h'.serviceable, fun hl => ?_, fun hl => ?_, fun p hp => ?_, fun p hp => ?_,
    h'.owned h.owned⟩
  · rw [h'.rxBytesLeft] at hl ⊢
    obtain ⟨p, ps, hc, htype, hlen, hpointer⟩ := h.packet hl
    refine ⟨p, ps ++ qs, ?_, htype, hlen, ?_⟩
    · rw [hin, hc, List.cons_append]
    · rw [h'.rxPointer, h'.link.rxMain]
      exact hpointer
  · rw [h'.rxBytesLeft] at hl
    rw [h'.waiting]
    exact h.reported hl
  · rw [hin] at hp
    rcases List.mem_append.mp hp with hp | hp
    · exact h.data p hp
    · exact hdata p hp
  · rw [hin] at hp
    rw [hacc]
    rcases List.mem_append.mp hp with hp | hp
    · exact List.mem_append_left _ (h.accepted p hp)
    · exact List.mem_append_right _ hp

theorem Reading.unread_still (h : Reading c) (h' : RxStill c d) : ∃ qs,
    d.link.accepted = c.link.accepted ++ qs ∧ d.unread = c.unread ++ qs := by
  obtain ⟨qs, hacc, hin, -⟩ := h'.arrives
  refine ⟨qs, hacc, ?_⟩
  by_cases hl : c.rxBytesLeft = 0
  · rw [unread_of_done hl, unread_of_done (h'.rxBytesLeft.trans hl), hin]
  · obtain ⟨p, ps, hc, -⟩ := h.packet hl
    have hd : d.link.view.inbox = p :: (ps ++ qs) := by rw [hin, hc, List.cons_append]
    have hl' : d.rxBytesLeft ≠ 0 := fun he => hl (h'.rxBytesLeft.symm.trans he)
    rw [unread_of_reading hl hc, unread_of_reading hl' hd, h'.rxBytesLeft, List.cons_append]

/-! ### The moves of the reader -/

/-- From `c` to `d` the reader moves, and its caller is told nothing. -/
structure Advances (c d : Com) : Prop where
  reading : Reading d
  radioComRxEnforceOrdering : d.radioComRxEnforceOrdering = c.radioComRxEnforceOrdering
  accepted : c.link.accepted <+: d.link.accepted
  moves : ∀ told, Relation.ReflTransGen (Move (c.radioComRxEnforceOrdering = true))
    (c.view told) (d.view told)

theorem Advances.refl (h : Reading c) : Advances c c := ⟨h, rfl, List.prefix_rfl, fun _ => .refl⟩

theorem Advances.trans (h : Advances c d) (h' : Advances d e) : Advances c e := by
  refine ⟨h'.reading, h'.radioComRxEnforceOrdering.trans h.radioComRxEnforceOrdering,
    h.accepted.trans h'.accepted, fun told => (h.moves told).trans ?_⟩
  rw [← h.radioComRxEnforceOrdering]
  exact h'.moves told

theorem RxStill.advances (h' : RxStill c d) (h : Reading c) : Advances c d := by
  obtain ⟨qs, hacc, hunread⟩ := h.unread_still h'
  refine ⟨h.still h', h'.radioComRxEnforceOrdering, ⟨qs, hacc.symm⟩, fun told => ?_⟩
  have hview : d.view told = { c.view told with
      accepted := (c.view told).accepted ++ items qs
      unread := (c.view told).unread ++ items qs } := by
    unfold view
    rw [hacc, hunread, items_append, items_append, h'.radioComRxSignals, h'.lastRxSignals]
  rw [hview]
  exact .single (.arrive _ _)

/-- The current packet stays the first one, in its buffer. -/
theorem Fetches.inbox {slot : ℕ} {t : UInt8} (hf : Fetches c slot t) (h : Reading c) :
    ∃ p ps, c.interrupt.link.view.inbox = p :: ps ∧ p.payloadType = t ∧ p.payload ≠ [] ∧
      slot = c.interrupt.link.radioLinkRxMainLoopIndex ∧
      p = rxPacketOf (c.interrupt.link.radioLinkRxPacket slot) := by
  have hstill := rxStill_interrupt h.serviceable
  obtain ⟨hslot, ps, hin⟩ := Node.inbox_of_current h.serviceable.toInRange hf.packet
  obtain ⟨qs, -, hin', -⟩ := hstill.arrives
  rw [hin, List.cons_append] at hin'
  have hp := (Node.inbox_cons hstill.serviceable.toInRange hin').2
  have hslot' : slot = c.interrupt.link.radioLinkRxMainLoopIndex :=
    hslot.trans hstill.link.rxMain.symm
  refine ⟨_, _, hin', hf.payloadType, h.data _ ?_, hslot', ?_⟩
  · rw [hin]
    exact List.mem_cons_self
  · rw [hslot']
    exact hp

theorem Fetches.waiting {slot : ℕ} {t : UInt8} (hf : Fetches c slot t) (h : Reading c) :
    c.interrupt.waitingToReportRxSignals = false :=
  (rxStill_interrupt h.serviceable).waiting.trans hf.reported

/-- The length byte of a packet with data. -/
theorem rxByte_length {slot : ℕ} {p : Packet} (hp : p = rxPacketOf (c.link.radioLinkRxPacket slot))
    (hdata : p.payload ≠ []) :
    (c.rxByte slot 1).toNat = p.payload.length ∧ c.rxByte slot 1 ≠ 0 := by
  have hlen : (c.rxByte slot 1).toNat = p.payload.length := by
    rw [hp]
    exact (length_payload _ _).symm
  refine ⟨hlen, fun he => ?_⟩
  rw [he] at hlen
  exact hdata (List.length_eq_zero_iff.mp hlen.symm)

theorem advances_loadPacket {slot : ℕ} (h : Reading c) (hf : Fetches c slot payloadTypeData) :
    Advances c (c.interrupt.loadPacket slot) := by
  have hstill := rxStill_interrupt h.serviceable
  have hi := h.still hstill
  obtain ⟨p, ps, hin, htype, hdata, hslot, hp⟩ := hf.inbox h
  obtain ⟨hlen, hne⟩ := rxByte_length hp hdata
  refine (hstill.advances h).trans ⟨⟨hi.serviceable, fun _ => ?_, fun _ => hf.waiting h, hi.data,
    hi.accepted, hi.owned⟩, rfl, List.prefix_rfl, fun told => ?_⟩
  · refine ⟨p, ps, hin, htype, Nat.le_of_eq hlen, ?_⟩
    change some (slot, 2) = some (c.interrupt.link.radioLinkRxMainLoopIndex,
      2 + (p.payload.length - (c.interrupt.rxByte slot 1).toNat))
    rw [hlen, Nat.sub_self, ← hslot]
  · have hunread : (c.interrupt.loadPacket slot).unread = c.interrupt.unread := by
      rw [unread_of_reading (c := c.interrupt.loadPacket slot) hne hin,
        unread_of_done (c := c.interrupt) hf.rxBytesLeft, hin]
      change (⟨p.payloadType, p.payload.drop (p.payload.length -
        (c.interrupt.rxByte slot 1).toNat)⟩ : Packet) :: _ = _
      rw [hlen, Nat.sub_self, List.drop_zero]
    unfold view
    rw [hunread]
    exact .refl

/-- The first packet of the ring has been processed, and the main loop releases it. -/
theorem finish_packet {p : Packet} {ps : List Packet} (h : c.link.Serviceable)
    (hl : c.rxBytesLeft = 0) (hin : c.link.view.inbox = p :: ps)
    (hdata : ∀ q ∈ c.link.view.inbox, q.payload ≠ [])
    (haccepted : ∀ q ∈ c.link.view.inbox, q ∈ c.link.accepted)
    (howned : ∀ k q, .released k q ∈ c.link.history → k ≠ 0) :
    Reading c.interrupt.radioLinkRxDoneWithPacket ∧
      ∃ qs, c.interrupt.radioLinkRxDoneWithPacket.link.accepted = c.link.accepted ++ qs ∧
        c.interrupt.radioLinkRxDoneWithPacket.unread = ps ++ qs := by
  have hstill := rxStill_interrupt h
  obtain ⟨qs, hacc, hin', hqs⟩ := hstill.arrives
  have hin₁ : c.interrupt.link.view.inbox = p :: (ps ++ qs) := by
    rw [hin', hin, List.cons_append]
  have hin₂ : c.interrupt.radioLinkRxDoneWithPacket.link.view.inbox = ps ++ qs :=
    Node.inbox_radioLinkRxDoneWithPacket hstill.serviceable.toInRange hin₁
  have hacc' : c.interrupt.radioLinkRxDoneWithPacket.link.accepted = c.link.accepted ++ qs :=
    ((Node.accepted_record _).trans (List.append_nil _)).trans hacc
  refine ⟨⟨hstill.serviceable.radioLinkRxDoneWithPacket, fun hne => absurd hl hne,
    fun hne => absurd hl hne, fun q hq => ?_, fun q hq => ?_, fun k q hmem => ?_⟩, qs, hacc', ?_⟩
  · rw [hin₂] at hq
    rcases List.mem_append.mp hq with hq | hq
    · exact hdata q (by rw [hin]; exact List.mem_cons_of_mem _ hq)
    · exact hqs q hq
  · rw [hin₂] at hq
    rw [hacc']
    rcases List.mem_append.mp hq with hq | hq
    · exact List.mem_append_left _ (haccepted q (by rw [hin]; exact List.mem_cons_of_mem _ hq))
    · exact List.mem_append_right _ hq
  · rcases List.mem_append.mp hmem with hmem | hmem
    · exact hstill.owned howned k q hmem
    · obtain ⟨rfl, -⟩ := LinkEvent.released.inj (List.mem_singleton.mp hmem)
      rw [Node.rxOwned_eq_length, hin₁]
      exact Nat.succ_ne_zero _
  · rw [unread_of_done (c := c.interrupt.radioLinkRxDoneWithPacket) hl, hin₂]

theorem items_cons (p : Packet) (ps : List Packet) : items (p :: ps) = packetItems p ++ items ps :=
  List.flatMap_cons

theorem signals_reported (h : c.waitingToReportRxSignals = false)
    (ho : c.radioComRxEnforceOrdering = true) : c.radioComRxSignals = c.lastRxSignals := by
  rw [waitingToReportRxSignals, ho, Bool.true_and, bne_eq_false_iff_eq] at h
  exact h

theorem advances_takeSignals {slot : ℕ} (h : Reading c)
    (hf : Fetches c slot payloadTypeControlSignals) :
    Advances c (c.interrupt.takeSignals slot) := by
  have hstill := rxStill_interrupt h.serviceable
  have hi := h.still hstill
  obtain ⟨p, ps, hin, htype, hdata, -, hp⟩ := hf.inbox h
  have hpacket : packetItems p = [.signal (c.interrupt.rxByte slot 2)] := by
    have hhead : p.payload.headD 0 = c.interrupt.rxByte slot 2 := by
      rw [hp] at hdata ⊢
      refine headD_payload _ (Nat.pos_of_ne_zero fun hn => hdata ?_)
      exact List.length_eq_zero_iff.mp ((length_payload _ _).trans hn)
    rw [packetItems, htype, if_neg (by decide), if_pos rfl, hhead]
  refine (hstill.advances h).trans ?_
  unfold takeSignals
  generalize c.interrupt.rxByte slot 2 = v at hpacket
  obtain ⟨hreading, qs, hacc, hunread⟩ := finish_packet (c := c.interrupt.noteSignals v)
    hi.serviceable hf.rxBytesLeft hin hi.data hi.accepted hi.owned
  refine ⟨hreading, rfl, ⟨qs, hacc.symm⟩, fun told => ?_⟩
  have htake : (c.interrupt.view told).unread = .signal v :: items ps := by
    change items c.interrupt.unread = _
    rw [unread_of_done (c := c.interrupt) hf.rxBytesLeft, hin, items_cons, hpacket]
    rfl
  have hmove : Move (c.interrupt.radioComRxEnforceOrdering = true) (c.interrupt.view told)
      { c.interrupt.view told with unread := items ps, signal := v } :=
    .take _ v _ htake (signals_reported (hf.waiting h))
  have hview : ((c.interrupt.noteSignals v).interrupt.radioLinkRxDoneWithPacket).view told =
      { c.interrupt.view told with
        accepted := items c.interrupt.link.accepted ++ items qs
        unread := items ps ++ items qs
        signal := v } := by
    unfold Com.view
    rw [hacc, hunread, items_append, items_append ps]
    rfl
  rw [hview]
  exact (Relation.ReflTransGen.single hmove).tail (.arrive _ (items qs))

theorem rxRule_advances (c : Com) : RxRule (Advances c) where
  interrupt _ h := h.trans ((rxStill_interrupt h.reading.serviceable).advances h.reading)
  load _ _ h hf := h.trans (advances_loadPacket h.reading hf)
  signals _ _ h hf := h.trans (advances_takeSignals h.reading hf)

theorem reading_reportSignals (h : Reading c) : Reading c.reportSignals where
  serviceable := h.serviceable
  packet := h.packet
  reported _ := by
    change (c.radioComRxEnforceOrdering && c.radioComRxSignals != c.radioComRxSignals) = false
    simp
  data := h.data
  accepted := h.accepted
  owned := h.owned

theorem move_reportSignals (c : Com) (told : List (Item UInt8 UInt8)) :
    Move (c.radioComRxEnforceOrdering = true) (c.view told)
      (c.reportSignals.view (told ++ [.signal c.radioComRxSignals])) := .report _

/-- The RX pointer points to the first byte that is unread. -/
theorem Reading.unread_cons (h : Reading c) (hl : c.rxBytesLeft ≠ 0) : ∃ p ps,
    c.link.view.inbox = p :: ps ∧ p.payloadType = payloadTypeData ∧
    (c.rxBytesLeft - 1).toNat + 1 ≤ p.payload.length ∧
    c.rxPointer.next = some (c.link.radioLinkRxMainLoopIndex,
      2 + (p.payload.length - (c.rxBytesLeft - 1).toNat)) ∧
    items c.unread = .data c.readRxPointer :: items
      (⟨p.payloadType, p.payload.drop (p.payload.length - (c.rxBytesLeft - 1).toNat)⟩ :: ps) := by
  obtain ⟨p, ps, hin, htype, hlen, hpointer⟩ := h.packet hl
  have hp := (Node.inbox_cons h.serviceable.toInRange hin).2
  have hpos : 0 < c.rxBytesLeft.toNat := Nat.pos_of_ne_zero fun he => hl (UInt8.toNat_inj.mp he)
  have hsub : (c.rxBytesLeft - 1).toNat = c.rxBytesLeft.toNat - 1 :=
    UInt8.toNat_sub_of_le _ _ (UInt8.le_iff_toNat_le.mpr hpos)
  have hoff : p.payload.length - c.rxBytesLeft.toNat < p.payload.length := by omega
  have hbyte : c.readRxPointer = p.payload[p.payload.length - c.rxBytesLeft.toNat] := by
    subst hp
    unfold readRxPointer
    rw [hpointer]
    simp [rxPacketOf, payload, rxByte]
  have hdrop : p.payload.drop (p.payload.length - c.rxBytesLeft.toNat) =
      c.readRxPointer :: p.payload.drop (p.payload.length - (c.rxBytesLeft - 1).toNat) := by
    rw [List.drop_eq_getElem_cons hoff, hbyte, hsub]
    congr 2
    omega
  refine ⟨p, ps, hin, htype, by omega, ?_, ?_⟩
  · rw [hpointer, hsub]
    simp only [Pointer.next, Option.map_some]
    congr 2
    omega
  · rw [unread_of_reading hl hin, items_cons, items_cons, hdrop]
    simp only [packetItems, htype, if_true, List.map_cons, List.cons_append]

/-- A call while bytes are left reads the first of them. -/
theorem radioComRxReceiveByte_spec (h : Reading c) (hl : c.rxBytesLeft ≠ 0) :
    Reading c.radioComRxReceiveByte.1 ∧
      c.radioComRxReceiveByte.1.rxBytesLeft = c.rxBytesLeft - 1 ∧
      c.radioComRxReceiveByte.1.radioComRxEnforceOrdering = c.radioComRxEnforceOrdering ∧
      c.link.accepted <+: c.radioComRxReceiveByte.1.link.accepted ∧
      ∀ told, Relation.ReflTransGen (Move (c.radioComRxEnforceOrdering = true)) (c.view told)
        (c.radioComRxReceiveByte.1.view (told ++ [.data c.radioComRxReceiveByte.2])) := by
  obtain ⟨p, ps, hin, htype, hlen, hpointer, hunread⟩ := h.unread_cons hl
  have hmove : ∀ told, Move (c.radioComRxEnforceOrdering = true) (c.view told) { c.view told with
      unread := items
        (⟨p.payloadType, p.payload.drop (p.payload.length - (c.rxBytesLeft - 1).toNat)⟩ :: ps)
      output := told ++ [.data c.readRxPointer] } := fun told =>
    .read _ _ _ hunread (signals_reported (h.reported hl))
  simp only [radioComRxReceiveByte]
  split_ifs with hz
  · have hlast : c.rxBytesLeft - 1 = 0 := hz
    obtain ⟨hreading, qs, hacc, hrest⟩ := finish_packet (c := c.advanceRx) h.serviceable hz hin
      h.data h.accepted h.owned
    refine ⟨hreading, rfl, rfl, ⟨qs, hacc.symm⟩, fun told => ?_⟩
    have hnone : items (⟨p.payloadType,
        p.payload.drop (p.payload.length - (c.rxBytesLeft - 1).toNat)⟩ :: ps) = items ps := by
      rw [hlast, UInt8.toNat_zero, Nat.sub_zero, List.drop_length, items_cons]
      simp only [packetItems, htype, if_true, List.map_nil, List.nil_append]
    have hview : c.advanceRx.interrupt.radioLinkRxDoneWithPacket.view
        (told ++ [.data c.readRxPointer]) = { c.view told with
          accepted := items c.link.accepted ++ items qs
          unread := items ps ++ items qs
          output := told ++ [.data c.readRxPointer] } := by
      unfold Com.view
      rw [hacc, hrest, items_append, items_append ps]
      rfl
    have hread := hmove told
    rw [hnone] at hread
    rw [hview]
    exact (Relation.ReflTransGen.single hread).tail (.arrive _ (items qs))
  · have hne : c.rxBytesLeft - 1 ≠ 0 := hz
    refine ⟨⟨h.serviceable, fun _ => ?_, fun _ => h.reported hl, h.data, h.accepted, h.owned⟩, rfl,
      rfl, List.prefix_rfl, fun told => ?_⟩
    · exact ⟨p, ps, hin, htype, Nat.le_of_succ_le hlen, hpointer⟩
    · have hrest : c.advanceRx.unread = ⟨p.payloadType,
          p.payload.drop (p.payload.length - (c.rxBytesLeft - 1).toNat)⟩ :: ps :=
        unread_of_reading (c := c.advanceRx) hne hin
      have hview : c.advanceRx.view (told ++ [.data c.readRxPointer]) = { c.view told with
          unread := items
            (⟨p.payloadType, p.payload.drop (p.payload.length - (c.rxBytesLeft - 1).toNat)⟩ :: ps)
          output := told ++ [.data c.readRxPointer] } := by
        unfold Com.view
        rw [hrest]
        rfl
      rw [hview]
      exact .single (hmove told)

end Com
end WixelSdk.RadioCom
