import WixelSdk.RadioComRules

/-!
# The packet under construction

`Building` says what holds of the transmit side between two calls: while bytes are loaded there is a
free buffer, the two pointers point into it, and it contains the bytes. Everything that the functions
do is one of three things: steps that are `Still` for the transmit side, sending the loaded data, and
sending the control signals.
-/

namespace WixelSdk.RadioCom
open RadioMac RadioLink Transition

namespace Com

/-- Nothing happened on the transmit side, except that signals may have been requested. -/
structure Still (c d : Com) : Prop where
  serviceable : d.link.Serviceable
  link : Node.TxQuiet c.link d.link
  txBytesLoaded : d.txBytesLoaded = c.txBytesLoaded
  txPointer : d.txPointer = c.txPointer
  packetPointer : d.packetPointer = c.packetPointer
  radioComTxSignals : d.radioComTxSignals = c.radioComTxSignals
  sendSignalsSoon : d.sendSignalsSoon = false → c.sendSignalsSoon = false

variable {c d e : Com}

/-- Only the link changes. -/
theorem Still.of_link {n : Node} (hs : n.Serviceable) (h : Node.TxQuiet c.link n)
    (is : List (List Irq)) (ps : List (Node × Irq)) :
    Still c { c with link := n, interrupts := is, passed := ps } :=
  ⟨hs, h, rfl, rfl, rfl, rfl, id⟩

/-- Only variables of the receive side change. -/
theorem Still.of_rx (hs : c.link.Serviceable) (left : UInt8) (p : Pointer) (v w : UInt8) :
    Still c { c with
      rxBytesLeft := left, rxPointer := p, radioComRxSignals := v, lastRxSignals := w } :=
  ⟨hs, .refl _, rfl, rfl, rfl, rfl, id⟩

theorem Still.refl (h : c.link.Serviceable) : Still c c :=
  .of_link h (.refl _) c.interrupts c.passed

theorem Still.trans (h : Still c d) (h' : Still d e) : Still c e :=
  ⟨h'.serviceable, h.link.trans h'.link, h'.txBytesLoaded.trans h.txBytesLoaded,
    h'.txPointer.trans h.txPointer, h'.packetPointer.trans h.packetPointer,
    h'.radioComTxSignals.trans h.radioComTxSignals,
    fun hd => h.sendSignalsSoon (h'.sendSignalsSoon hd)⟩

theorem still_interrupt (h : c.link.Serviceable) : Still c c.interrupt :=
  .of_link (serves_interrupt h).2 (serves_interrupt h).1.txQuiet _ _

theorem still_schedule (h : c.link.Serviceable) (is : List (List Irq)) : Still c (c.schedule is) :=
  .of_link h (.refl _) is _

theorem still_interrupts (h : c.link.Serviceable) (is : List Irq) :
    Still c { c with
      link := is.foldl Node.interrupt c.link, passed := c.passed ++ c.link.visits is } :=
  .of_link (h.interrupts is).2 (h.interrupts is).1.txQuiet _ _

theorem still_noticeReset (h : c.link.Serviceable) : Still c c.noticeReset := by
  refine noticeReset_preserves (I := Still c) (fun _ hd => hd.trans (still_interrupt hd.serviceable))
    (fun d hd => hd.trans ?_) (fun d hd => hd.trans ?_) (.refl h)
  · exact .of_link (c := d) (serviceable_clearResetPacketReceived hd.serviceable)
      ⟨rfl, rfl, Nat.le_refl _, [], (List.append_nil _).symm, by simp⟩ _ _
  · exact ⟨hd.serviceable, .refl _, rfl, rfl, rfl, rfl, nofun⟩

/-! ### The receive side does not disturb the transmit side -/

theorem rxParts_still (c : Com) : RxParts (Still c) where
  interrupt _ h := h.trans (still_interrupt h.serviceable)
  load _ _ h := h.trans (.of_rx h.serviceable _ _ _ _)
  note _ _ h := h.trans (.of_rx h.serviceable _ _ _ _)
  done _ h := h.trans (.of_link h.serviceable.radioLinkRxDoneWithPacket
    (Node.txQuiet_radioLinkRxDoneWithPacket _) _ _)
  advance _ h := h.trans (.of_rx h.serviceable _ _ _ _)

/-! ### Sending a packet -/

/-- The packet `p` was queued, with interrupts before and after. -/
structure Queues (c d : Com) (p : Packet) : Prop where
  serviceable : d.link.Serviceable
  valid : p.Valid
  history : ∃ es b es', d.link.history = c.link.history ++ (es ++ .queued b (b + 1) p :: es') ∧
    b < 15 ∧ (∀ e ∈ es, e.sent? = none) ∧ (∀ e ∈ es', e.sent? = none) ∧
    (.resetReceived ∈ es' → d.link.radioLinkResetPacketReceived = true)
  queued : d.link.radioLinkTxQueued ≤ c.link.radioLinkTxQueued + 1
  radioComTxSignals : d.radioComTxSignals = c.radioComTxSignals

theorem filterMap_sent_eq_nil {es : List LinkEvent} (h : ∀ e ∈ es, e.sent? = none) :
    es.filterMap LinkEvent.sent? = [] := List.filterMap_eq_nil_iff.mpr h

theorem Still.sent (h : Still c d) : d.link.sent = c.link.sent := by
  obtain ⟨es, hes, hnone⟩ := h.link.events
  simp only [Node.sent, hes, List.filterMap_append, filterMap_sent_eq_nil hnone, List.append_nil]

theorem Queues.sent {p : Packet} (h : Queues c d p) : d.link.sent = c.link.sent ++ [p] := by
  obtain ⟨es, b, es', hhist, -, hes, hes', -⟩ := h.history
  simp only [Node.sent, hhist, List.filterMap_append, List.filterMap_cons, LinkEvent.sent?,
    filterMap_sent_eq_nil hes, filterMap_sent_eq_nil hes', List.nil_append]

/-- The packet that the header completes, whatever interrupts come before the index moves on. -/
theorem txPacketOf_interrupt (h : c.link.Serviceable) {t : UInt8}
    (ht : (c.link.populated t).Valid) :
    txPacketOf ((c.writeTxHeader t).interrupt.link.radioLinkTxPacket
      (c.writeTxHeader t).interrupt.link.radioLinkTxMainLoopIndex) = c.link.populated t := by
  obtain ⟨hserves, -⟩ := serves_interrupt (c := c.writeTxHeader t) (h.writeTxHeader t)
  rw [hserves.txMain, hserves.slot]
  exact Node.txPacketOf_writeTxHeader ht

theorem queues_radioLinkTxSendPacket (h : c.link.Serviceable)
    (hfree : c.link.radioLinkTxQueued < 15) {t : UInt8} (ht : (c.link.populated t).Valid) :
    Queues c (c.radioLinkTxSendPacket t) (c.link.populated t) := by
  have hw : (c.writeTxHeader t).link.Serviceable := h.writeTxHeader t
  obtain ⟨hserves, hs⟩ := serves_interrupt hw
  have ha : ((c.writeTxHeader t).interrupt.advanceTxMainLoopIndex).link.Serviceable :=
    hs.advanceTxMainLoopIndex
  obtain ⟨hserves', hs'⟩ := serves_interrupt ha
  have hbefore : (c.writeTxHeader t).interrupt.link.radioLinkTxQueued ≤
      c.link.radioLinkTxQueued := hserves.queued
  have hlt := Nat.lt_of_le_of_lt hbefore hfree
  have hadd := Node.queued_advanceTxMainLoopIndex hs.toInRange hlt
  have hpacket := txPacketOf_interrupt h ht
  obtain ⟨es, hes, hnone⟩ := hserves.txQuiet.events
  obtain ⟨es', hes', hint, hflag, -⟩ := hserves'.events
  refine ⟨hs'.radioMacStrobe, ht, ⟨es, _, es', ?_, hlt, hnone, fun e he => (hint e he).sent?_eq_none,
    fun hmem => hflag.mpr (Or.inr hmem)⟩, ?_, rfl⟩
  · have hadv := Node.history_advanceTxMainLoopIndex (c.writeTxHeader t).interrupt.link
    rw [hadd, hpacket, hes] at hadv
    have hfinal := hes'.trans (congrArg (· ++ es') hadv)
    refine hfinal.trans ?_
    change (c.link.history ++ es ++ _) ++ es' = _
    simp
  · have hle := hserves'.queued
    exact Nat.le_trans hle (Nat.le_trans (Nat.le_of_eq hadd) (Nat.succ_le_succ hbefore))

/-- Nothing was queued between `c` and `d`. -/
theorem Queues.prepend {p : Packet} (h : Queues d e p)
    (hevents : ∃ es, d.link.history = c.link.history ++ es ∧ ∀ e ∈ es, e.sent? = none)
    (hqueued : d.link.radioLinkTxQueued ≤ c.link.radioLinkTxQueued)
    (hsignals : d.radioComTxSignals = c.radioComTxSignals) : Queues c e p := by
  obtain ⟨es, hes, hnone⟩ := hevents
  obtain ⟨es₁, b, es₂, hhist, hb, hes₁, hlast⟩ := h.history
  refine ⟨h.serviceable, h.valid, ⟨es ++ es₁, b, es₂, ?_, hb, ?_, hlast⟩,
    Nat.le_trans h.queued (Nat.succ_le_succ hqueued), h.radioComTxSignals.trans hsignals⟩
  · rw [hhist, hes, List.append_assoc, List.append_assoc]
  · exact List.forall_mem_append.mpr ⟨hnone, hes₁⟩

theorem Still.queues {p : Packet} (h : Still c d) (h' : Queues d e p) : Queues c e p :=
  h'.prepend h.link.events h.link.queued h.radioComTxSignals

def loadedBytes (c : Com) : List UInt8 :=
  payload (c.link.radioLinkTxPacket c.link.radioLinkTxMainLoopIndex) c.txBytesLoaded.toNat

theorem Still.loadedBytes (h : Still c d) : d.loadedBytes = c.loadedBytes := by
  unfold Com.loadedBytes
  rw [h.link.txMain, h.link.slot, h.txBytesLoaded]

/-- A packet is under construction in the current TX buffer. -/
structure Open (c : Com) : Prop where
  serviceable : c.link.Serviceable
  free : c.link.radioLinkTxQueued < 15
  short : c.txBytesLoaded.toNat ≤ payloadSize
  packetPointer : c.packetPointer = some (c.link.radioLinkTxMainLoopIndex, 1)
  txPointer : c.txPointer =
    some (c.link.radioLinkTxMainLoopIndex, 1 + c.txBytesLoaded.toNat)

theorem Open.still (h : Open c) (h' : Still c d) : Open d where
  serviceable := h'.serviceable
  free := Nat.lt_of_le_of_lt h'.link.queued h.free
  short := by rw [h'.txBytesLoaded]; exact h.short
  packetPointer := by rw [h'.packetPointer, h'.link.txMain]; exact h.packetPointer
  txPointer := by rw [h'.txPointer, h'.link.txMain, h'.txBytesLoaded]; exact h.txPointer

/-- Storing the number of bytes completes the packet under construction. -/
theorem Open.store_length (h : Open c) : c.store c.packetPointer 0 c.txBytesLoaded =
    { c with link := c.link.storeTx c.link.radioLinkTxMainLoopIndex 1 c.txBytesLoaded } := by
  simp [store, h.packetPointer]

theorem populated_storeTx (c : Com) :
    (c.link.storeTx c.link.radioLinkTxMainLoopIndex 1 c.txBytesLoaded).populated payloadTypeData =
      ⟨payloadTypeData, c.loadedBytes⟩ := by
  simp only [Node.populated, Node.storeTx, Function.update_self, Com.loadedBytes]
  congr 1
  apply payload_congr
  intro i _
  exact Function.update_of_ne (by omega) _ _

theorem Open.valid (h : Open c) (hl : c.txBytesLoaded ≠ 0) :
    (⟨payloadTypeData, c.loadedBytes⟩ : Packet).Valid := by
  have hlen : 1 ≤ c.txBytesLoaded.toNat := by
    rcases Nat.eq_zero_or_pos c.txBytesLoaded.toNat with h₀ | h₀
    · exact absurd (UInt8.toNat_inj.mp h₀) hl
    · exact h₀
  refine ⟨?_, ?_, show payloadTypeData ≤ 15 by decide⟩
  · simpa [Com.loadedBytes] using hlen
  · simpa [Com.loadedBytes] using h.short

theorem queues_radioComSendDataNow (h : Open c) (hl : c.txBytesLoaded ≠ 0) :
    Queues c c.radioComSendDataNow ⟨payloadTypeData, c.loadedBytes⟩ := by
  have hvalid := h.valid hl
  unfold radioComSendDataNow
  rw [h.store_length]
  rw [← populated_storeTx] at hvalid ⊢
  have hq := queues_radioLinkTxSendPacket (c := { c with
    link := c.link.storeTx c.link.radioLinkTxMainLoopIndex 1 c.txBytesLoaded })
    (h.serviceable.storeTx _ _ _) h.free hvalid
  exact ⟨hq.serviceable, hq.valid, hq.history, hq.queued, hq.radioComTxSignals⟩

theorem radioLinkTxCurrentPacket_eq (hfree : c.link.radioLinkTxQueued < 15) :
    c.radioLinkTxCurrentPacket = some (c.link.radioLinkTxMainLoopIndex, 1) := by
  have hsum := c.link.radioLinkTxAvailable_add_queued
  have havail : c.link.radioLinkTxAvailable ≠ 0 := by omega
  simp [radioLinkTxCurrentPacket, Node.radioLinkTxCurrentPacket, havail]

/-- The control signals are stored in the current TX buffer. -/
theorem writeSignals_eq (hfree : c.link.radioLinkTxQueued < 15) :
    c.writeSignals c.radioLinkTxCurrentPacket = { c with
      link := (c.link.storeTx c.link.radioLinkTxMainLoopIndex 1 1).storeTx
        c.link.radioLinkTxMainLoopIndex 2 c.radioComTxSignals
      sendSignalsSoon := false } := by
  rw [radioLinkTxCurrentPacket_eq hfree]
  rfl

theorem serviceable_writeSignals (h : c.link.Serviceable)
    (hfree : c.link.radioLinkTxQueued < 15) :
    (c.writeSignals c.radioLinkTxCurrentPacket).link.Serviceable := by
  rw [writeSignals_eq hfree]
  exact (h.storeTx _ _ _).storeTx _ _ _

theorem valid_signals (v : UInt8) : (⟨payloadTypeControlSignals, [v]⟩ : Packet).Valid :=
  ⟨by simp, by simp [payloadSize], show payloadTypeControlSignals ≤ 15 by decide⟩

/-- They are the packet that the header will complete. -/
theorem populated_writeSignals (h : c.link.Serviceable) (hfree : c.link.radioLinkTxQueued < 15) :
    (c.writeSignals c.radioLinkTxCurrentPacket).interrupt.link.populated
      payloadTypeControlSignals = ⟨payloadTypeControlSignals, [c.radioComTxSignals]⟩ := by
  have hi := still_interrupt (serviceable_writeSignals h hfree)
  unfold Node.populated
  rw [hi.link.txMain, hi.link.slot, writeSignals_eq hfree]
  simp [Node.storeTx, payload]

theorem queues_radioComSendControlSignalsNow (h : c.link.Serviceable)
    (hfree : c.link.radioLinkTxQueued < 15) : Queues c c.radioComSendControlSignalsNow
      ⟨payloadTypeControlSignals, [c.radioComTxSignals]⟩ := by
  have hi := still_interrupt (serviceable_writeSignals h hfree)
  have hpacket := populated_writeSignals h hfree
  have hvalid := valid_signals c.radioComTxSignals
  rw [← hpacket] at hvalid
  have hqueued : (c.writeSignals c.radioLinkTxCurrentPacket).link.radioLinkTxQueued =
      c.link.radioLinkTxQueued := by
    rw [writeSignals_eq hfree]
    rfl
  have hlt : (c.writeSignals c.radioLinkTxCurrentPacket).interrupt.link.radioLinkTxQueued < 15 :=
    Nat.lt_of_le_of_lt hi.link.queued (hqueued ▸ hfree)
  have hq := hi.queues (queues_radioLinkTxSendPacket hi.serviceable hlt hvalid)
  rw [hpacket] at hq
  refine hq.prepend ⟨[], ?_, by simp⟩ (Nat.le_of_eq hqueued) ?_
  · rw [writeSignals_eq hfree]
    exact (List.append_nil _).symm
  · rw [writeSignals_eq hfree]

@[simp] theorem store_txBytesLoaded (c : Com) (p : Pointer) (i : ℕ) (b : UInt8) :
    (c.store p i b).txBytesLoaded = c.txBytesLoaded := by
  cases p <;> rfl

@[simp] theorem store_sendSignalsSoon (c : Com) (p : Pointer) (i : ℕ) (b : UInt8) :
    (c.store p i b).sendSignalsSoon = c.sendSignalsSoon := by
  cases p <;> rfl

theorem radioComSendDataNow_sendSignalsSoon (c : Com) :
    c.radioComSendDataNow.sendSignalsSoon = c.sendSignalsSoon :=
  store_sendSignalsSoon c c.packetPointer 0 c.txBytesLoaded

theorem radioComSendControlSignalsNow_txBytesLoaded (c : Com) :
    c.radioComSendControlSignalsNow.txBytesLoaded = c.txBytesLoaded := by
  change ((c.store c.radioLinkTxCurrentPacket 0 1).store c.radioLinkTxCurrentPacket 1
    c.radioComTxSignals).txBytesLoaded = _
  simp

/-! ### Between two calls -/

/-- Every packet was queued into a free buffer, so that the queue grew, and is valid. -/
def Orderly (history : List LinkEvent) : Prop :=
  ∀ b a p, .queued b a p ∈ history → b < 15 ∧ a = b + 1 ∧ p.Valid

theorem Orderly.quiet {hist hist' : List LinkEvent} (h : Orderly hist)
    (hevents : ∃ es, hist' = hist ++ es ∧ ∀ e ∈ es, e.sent? = none) : Orderly hist' := by
  obtain ⟨es, rfl, hnone⟩ := hevents
  intro b a p hmem
  rcases List.mem_append.mp hmem with hmem | hmem
  · exact h b a p hmem
  · cases hnone _ hmem

structure Building (c : Com) : Prop where
  serviceable : c.link.Serviceable
  short : c.txBytesLoaded.toNat < payloadSize
  packet : c.txBytesLoaded ≠ 0 → Open c
  orderly : Orderly c.link.history

theorem Building.still (h : Building c) (h' : Still c d) : Building d where
  serviceable := h'.serviceable
  short := by rw [h'.txBytesLoaded]; exact h.short
  packet hl := (h.packet (by rwa [h'.txBytesLoaded] at hl)).still h'
  orderly := h.orderly.quiet h'.link.events

theorem Building.queues {p : Packet} (h : Building c) (hq : Queues c d p)
    (hl : d.txBytesLoaded = 0) : Building d where
  serviceable := hq.serviceable
  short := by rw [hl]; decide
  packet hne := absurd hl hne
  orderly b a q hmem := by
    obtain ⟨es, b', es', hhist, hb, hes, hes', -⟩ := hq.history
    rw [hhist] at hmem
    rcases List.mem_append.mp hmem with hmem | hmem
    · exact h.orderly b a q hmem
    · rcases List.mem_append.mp hmem with hmem | hmem
      · cases hes _ hmem
      · rcases List.mem_cons.mp hmem with he | hmem
        · obtain ⟨rfl, rfl, rfl⟩ := LinkEvent.queued.inj he
          exact ⟨hb, rfl, hq.valid⟩
        · cases hes' _ hmem

theorem txRule_building : TxRule Building where
  serviceable _ h := h.serviceable
  interrupt _ h := h.still (still_interrupt h.serviceable)
  notice _ h := h.still (still_noticeReset h.serviceable)
  data _ h hl := h.queues (queues_radioComSendDataNow (h.packet hl) hl) rfl
  signals c h hl hfree := h.queues (queues_radioComSendControlSignalsNow h.serviceable hfree)
    (c.radioComSendControlSignalsNow_txBytesLoaded.trans hl)

theorem Building.requestSignals (h : Building c) (v : UInt8) : Building (c.requestSignals v) :=
  ⟨h.serviceable, h.short, fun hl => by
    obtain ⟨hs, hfree, hshort, hpacket, htx⟩ := h.packet hl
    exact ⟨hs, hfree, hshort, hpacket, htx⟩, h.orderly⟩

theorem Building.radioComTxControlSignals (h : Building c) (v : UInt8) :
    Building (c.radioComTxControlSignals v) := by
  unfold Com.radioComTxControlSignals
  split_ifs
  · exact txRule_building.radioComTxService (h.requestSignals v)
  · exact h

theorem startPacket_spec (h : Building c)
    (hroom : c.txBytesLoaded ≠ 0 ∨ c.link.radioLinkTxQueued < 15) :
    Open c.startPacket ∧ c.startPacket.txBytesLoaded = c.txBytesLoaded ∧
      c.startPacket.loadedBytes = c.loadedBytes ∧
      c.startPacket.radioComTxSignals = c.radioComTxSignals ∧
      c.startPacket.sendSignalsSoon = c.sendSignalsSoon ∧
      Node.TxQuiet c.link c.startPacket.link := by
  unfold startPacket
  split_ifs with hl
  · have hfree := hroom.resolve_left (fun hne => hne hl)
    have hopen : Open { c with
        txPointer := c.radioLinkTxCurrentPacket
        packetPointer := c.radioLinkTxCurrentPacket } := by
      refine ⟨h.serviceable, hfree, Nat.le_of_lt h.short, radioLinkTxCurrentPacket_eq hfree, ?_⟩
      simp [radioLinkTxCurrentPacket_eq hfree, hl]
    have hi := still_interrupt hopen.serviceable
    exact ⟨hopen.still hi, rfl, hi.loadedBytes, rfl, rfl, hi.link⟩
  · exact ⟨h.packet hl, rfl, rfl, rfl, rfl, .refl _⟩

theorem Open.appendByte_eq (h : Open c) (byte : UInt8) : c.appendByte byte = { c with
    link := c.link.storeTx c.link.radioLinkTxMainLoopIndex (2 + c.txBytesLoaded.toNat) byte
    txPointer := some (c.link.radioLinkTxMainLoopIndex, 2 + c.txBytesLoaded.toNat)
    txBytesLoaded := c.txBytesLoaded + 1 } := by
  have hnext : c.txPointer.next =
      some (c.link.radioLinkTxMainLoopIndex, 2 + c.txBytesLoaded.toNat) := by
    rw [h.txPointer]
    simp only [Pointer.next, Option.map_some]
    congr 2
    omega
  unfold appendByte
  rw [hnext]
  rfl

theorem appendByte_spec (h : Open c) (hshort : c.txBytesLoaded.toNat < payloadSize)
    (byte : UInt8) : Open (c.appendByte byte) ∧
      (c.appendByte byte).txBytesLoaded.toNat = c.txBytesLoaded.toNat + 1 ∧
      (c.appendByte byte).loadedBytes = c.loadedBytes ++ [byte] ∧
      (c.appendByte byte).link.history = c.link.history ∧
      (c.appendByte byte).link.radioLinkTxQueued = c.link.radioLinkTxQueued ∧
      (c.appendByte byte).radioComTxSignals = c.radioComTxSignals ∧
      (c.appendByte byte).sendSignalsSoon = c.sendSignalsSoon := by
  have hadd : (c.txBytesLoaded + 1).toNat = c.txBytesLoaded.toNat + 1 := by
    rw [UInt8.toNat_add, UInt8.toNat_one]
    simp only [payloadSize] at hshort
    omega
  rw [h.appendByte_eq byte]
  refine ⟨⟨h.serviceable.storeTx _ _ _, h.free, ?_, h.packetPointer, ?_⟩, hadd, ?_, rfl, rfl, rfl,
    rfl⟩
  · exact Nat.le_trans (Nat.le_of_eq hadd) hshort
  · change some (c.link.radioLinkTxMainLoopIndex, 2 + c.txBytesLoaded.toNat) =
      some (c.link.radioLinkTxMainLoopIndex, 1 + (c.txBytesLoaded + 1).toNat)
    rw [hadd]
    congr 2
    omega
  · simp only [Com.loadedBytes, hadd, Node.storeTx, Function.update_self, payload,
      List.range_succ, List.map_append, List.map_singleton]
    congr 1
    apply List.map_congr_left
    intro i hi
    have hlt := List.mem_range.mp hi
    exact Function.update_of_ne (by omega) _ _

/-- With a free buffer or a packet under construction, `radioComTxSendByte` either loads the byte or
sends the packet that it completes. -/
theorem radioComTxSendByte_cases (h : Building c)
    (hroom : c.txBytesLoaded ≠ 0 ∨ c.link.radioLinkTxQueued < 15) (byte : UInt8) :
    (c.radioComTxSendByte byte).radioComTxSignals = c.radioComTxSignals ∧
    (c.radioComTxSendByte byte).sendSignalsSoon = c.sendSignalsSoon ∧
    (((c.radioComTxSendByte byte).txBytesLoaded.toNat = c.txBytesLoaded.toNat + 1 ∧
        Building (c.radioComTxSendByte byte) ∧
        (c.radioComTxSendByte byte).loadedBytes = c.loadedBytes ++ [byte] ∧
        (c.radioComTxSendByte byte).link.sent = c.link.sent ∧
        (c.radioComTxSendByte byte).link.radioLinkTxQueued ≤ c.link.radioLinkTxQueued) ∨
      (c.txBytesLoaded.toNat + 1 = payloadSize ∧ (c.radioComTxSendByte byte).txBytesLoaded = 0 ∧
        Queues c (c.radioComTxSendByte byte) ⟨payloadTypeData, c.loadedBytes ++ [byte]⟩)) := by
  obtain ⟨hopen, hloaded, hbytes, hsignals, hsoon, hquiet⟩ := startPacket_spec h hroom
  have hshort : c.startPacket.txBytesLoaded.toNat < payloadSize := by
    rw [hloaded]
    exact h.short
  obtain ⟨hopen', hlen, hbytes', hhist, hqueued, hsignals', hsoon'⟩ :=
    appendByte_spec hopen hshort byte
  rw [hloaded] at hlen
  rw [hbytes] at hbytes'
  have hevents := hquiet.events
  rw [← hhist] at hevents
  have hle : (c.startPacket.appendByte byte).link.radioLinkTxQueued ≤ c.link.radioLinkTxQueued :=
    Nat.le_trans (Nat.le_of_eq hqueued) hquiet.queued
  unfold radioComTxSendByte
  split_ifs with hfull
  · have hlast : (c.startPacket.appendByte byte).txBytesLoaded.toNat = payloadSize :=
      congrArg UInt8.toNat hfull
    have hi := still_interrupt hopen'.serviceable
    have hne : (c.startPacket.appendByte byte).interrupt.txBytesLoaded ≠ 0 := by
      rw [hi.txBytesLoaded, hfull]
      decide
    have hq := hi.queues (queues_radioComSendDataNow (hopen'.still hi) hne)
    rw [hi.loadedBytes, hbytes'] at hq
    refine ⟨hq.radioComTxSignals.trans (hsignals'.trans hsignals), ?_,
      Or.inr ⟨by omega, rfl, hq.prepend hevents hle (hsignals'.trans hsignals)⟩⟩
    rw [radioComSendDataNow_sendSignalsSoon]
    exact hsoon'.trans hsoon
  · refine ⟨hsignals'.trans hsignals, hsoon'.trans hsoon, Or.inl ⟨hlen, ?_, hbytes', ?_, hle⟩⟩
    · have hlt : (c.startPacket.appendByte byte).txBytesLoaded.toNat ≠ payloadSize := fun he =>
        hfull (UInt8.toNat_inj.mp he)
      exact ⟨hopen'.serviceable, Nat.lt_of_le_of_ne hopen'.short hlt, fun _ => hopen',
        h.orderly.quiet hevents⟩
    · obtain ⟨es, hes, hnone⟩ := hevents
      simp only [Node.sent, hes, List.filterMap_append, filterMap_sent_eq_nil hnone,
        List.append_nil]

theorem Building.radioComTxSendByte (h : Building c)
    (hroom : c.txBytesLoaded ≠ 0 ∨ c.link.radioLinkTxQueued < 15) (byte : UInt8) :
    Building (c.radioComTxSendByte byte) := by
  obtain ⟨-, -, ⟨-, hb, -⟩ | ⟨-, hl, hq⟩⟩ := radioComTxSendByte_cases h hroom byte
  · exact hb
  · exact h.queues hq hl

theorem building_init (enforce : Bool) (channel : UInt8) :
    Building (Host.init enforce channel).com where
  serviceable := Node.serviceable_radioLinkInit channel
  short := show (0 : UInt8).toNat < payloadSize by decide
  packet hl := absurd rfl hl
  orderly _ _ _ hmem := by cases hmem

theorem still_radioLinkChangeChannel (h : c.link.Serviceable) (channel : UInt8) :
    Still c (c.radioLinkChangeChannel channel) := by
  refine .of_link (c := c) (h.radioLinkChangeChannel channel)
    ⟨rfl, rfl, ?_, [], (List.append_nil _).symm, by simp⟩ _ _
  change (((c.link.radioLinkTxMainLoopIndex : ℤ) - c.link.radioLinkTxMainLoopIndex) %
    txPacketCount).toNat ≤ _
  simp

end Com

namespace Host

variable {h t : Host} {a : HostAction}

/-- A step that is none of the calls of the transmit side. -/
theorem still_step (hs : h.com.link.Serviceable) (ha : ¬ a.Transmits) (ht : h.step a = some t) :
    Com.Still h.com t.com := by
  have hsched : ∀ is, Com.Still h.com (h.com.schedule is) := Com.still_schedule hs
  cases a with
  | txService => exact absurd trivial ha
  | txSendByte => exact absurd trivial ha
  | txControlSignals => exact absurd trivial ha
  | interrupts is =>
      obtain rfl := Option.some.inj ht
      exact Com.still_interrupts hs is
  | txAvailable =>
      obtain rfl := Option.some.inj ht
      exact .refl hs
  | rxAvailable is =>
      obtain ⟨d, hd, rfl⟩ := step_rxAvailable ht
      exact (Com.rxParts_still h.com).rxRule.receiveMorePackets (hsched is) hd
  | rxReceiveByte is =>
      obtain rfl := Option.some.inj ht
      exact (Com.rxParts_still h.com).radioComRxReceiveByte (hsched is)
  | rxControlSignals is =>
      obtain ⟨d, hd, rfl⟩ := step_rxControlSignals ht
      have hstill := (Com.rxParts_still h.com).rxRule.receiveMorePackets (hsched is) hd
      exact hstill.trans (.of_rx hstill.serviceable _ _ _ _)
  | changeChannel channel =>
      obtain rfl := Option.some.inj ht
      exact Com.still_radioLinkChangeChannel hs channel

end Host
end WixelSdk.RadioCom
