import WixelSdk.RadioComHost

/-!
# What the functions of the byte stream layer preserve

A rule for each function with branches: what it preserves follows from what its parts preserve. The
facts about the state that the branches establish are handed to the parts.
-/

namespace WixelSdk.RadioCom
open RadioMac RadioLink

namespace Com

variable {I : Com → Prop} {c d : Com}

theorem serves_interrupt (h : c.link.Serviceable) :
    Node.Serves c.link c.interrupt.link ∧ c.interrupt.link.Serviceable := h.interrupts _

theorem serviceable_clearResetPacketReceived (h : c.link.Serviceable) :
    c.clearResetPacketReceived.link.Serviceable :=
  ⟨⟨h.rxMain, h.rxInterrupt, h.txMain, h.txInterrupt, h.pktlen⟩, h.tuned⟩

/-! ### The receive side -/

/-- `receiveMorePackets` processes the current packet, whose buffer and payload type are given. -/
structure Fetches (c : Com) (slot : ℕ) (payloadType : UInt8) : Prop where
  rxBytesLeft : c.rxBytesLeft = 0
  reported : c.waitingToReportRxSignals = false
  packet : c.link.radioLinkRxCurrentPacket = some slot
  payloadType : c.link.radioLinkRxCurrentPayloadType = payloadType

structure RxRule (I : Com → Prop) : Prop where
  interrupt : ∀ c, I c → I c.interrupt
  load : ∀ c slot, I c → Fetches c slot payloadTypeData → I (c.interrupt.loadPacket slot)
  signals : ∀ c slot, I c → Fetches c slot payloadTypeControlSignals →
    I (c.interrupt.takeSignals slot)

/-- The rule also covers a loop that has not stopped. -/
theorem RxRule.receiveLoop (hI : RxRule I) {fuel : ℕ} (h : I c) (hleft : c.rxBytesLeft = 0)
    (hreported : c.waitingToReportRxSignals = false)
    (hd : c.receiveLoop fuel = .ok d ∨ c.receiveLoop fuel = .error d) : I d := by
  induction fuel generalizing c with
  | zero =>
      obtain rfl := Except.error.inj (hd.resolve_left nofun)
      exact h
  | succ fuel ih =>
      simp only [Com.receiveLoop] at hd
      split at hd
      · obtain rfl := Except.ok.inj (hd.resolve_right nofun)
        exact h
      · rename_i slot hslot
        split_ifs at hd with hdata hsignals hwait
        · obtain rfl := Except.ok.inj (hd.resolve_right nofun)
          exact hI.load c slot h ⟨hleft, hreported, hslot, hdata⟩
        · obtain rfl := Except.ok.inj (hd.resolve_right nofun)
          exact hI.signals c slot h ⟨hleft, hreported, hslot, hsignals⟩
        · have ht := hI.signals c slot h ⟨hleft, hreported, hslot, hsignals⟩
          exact ih (hI.interrupt _ ht) hleft (Bool.eq_false_iff.mpr hwait) hd
        · exact ih (hI.interrupt _ h) hleft hreported hd

theorem RxRule.receiveMorePackets (hI : RxRule I) (h : I c)
    (hd : c.receiveMorePackets = .ok d) : I d := by
  unfold Com.receiveMorePackets at hd
  split_ifs at hd with hleft hwait
  · obtain rfl := Except.ok.inj hd
    exact h
  · obtain rfl := Except.ok.inj hd
    exact h
  · exact hI.receiveLoop h (not_not.mp hleft) (Bool.eq_false_iff.mpr hwait) (Or.inl hd)

/-- The parts of the receive functions, for what does not depend on the packet being read. -/
structure RxParts (I : Com → Prop) : Prop where
  interrupt : ∀ c, I c → I c.interrupt
  load : ∀ c slot, I c → I (c.loadPacket slot)
  note : ∀ c v, I c → I (c.noteSignals v)
  done : ∀ c, I c → I c.radioLinkRxDoneWithPacket
  advance : ∀ c, I c → I c.advanceRx

theorem RxParts.rxRule (hI : RxParts I) : RxRule I where
  interrupt := hI.interrupt
  load _ _ h _ := hI.load _ _ (hI.interrupt _ h)
  signals _ _ h _ := hI.done _ (hI.interrupt _ (hI.note _ _ (hI.interrupt _ h)))

theorem RxParts.radioComRxReceiveByte (hI : RxParts I) (h : I c) :
    I c.radioComRxReceiveByte.1 := by
  have hadvance := hI.advance _ h
  simp only [Com.radioComRxReceiveByte]
  split_ifs
  · exact hI.done _ (hI.interrupt _ hadvance)
  · exact hadvance

/-! ### The transmit side -/

/-- The parts of `radioComTxSendByte` and of the functions that queue a packet. -/
structure LinkRule (I : Com → Prop) : Prop where
  interrupt : ∀ c, I c → I c.interrupt
  store : ∀ c slot offset b, I c → I { c with link := c.link.storeTx slot offset b }
  advance : ∀ c, I c → I c.advanceTxMainLoopIndex
  strobe : ∀ c, I c → I c.radioMacStrobe
  loaded : ∀ c n, I c → I { c with txBytesLoaded := n }
  pointers : ∀ c p q, I c → I { c with txPointer := p, packetPointer := q }

theorem LinkRule.storeAt (hI : LinkRule I) (h : I c) (p : Pointer) (i : ℕ) (b : UInt8) :
    I (c.store p i b) := by
  cases p with
  | none => exact h
  | some q => exact hI.store _ _ _ _ h

theorem LinkRule.radioLinkTxSendPacket (hI : LinkRule I) (h : I c) (t : UInt8) :
    I (c.radioLinkTxSendPacket t) := by
  have hheader : I (c.writeTxHeader t) := hI.store _ _ _ _ (hI.store _ _ _ _ h)
  exact hI.strobe _ (hI.interrupt _ (hI.advance _ (hI.interrupt _ hheader)))

theorem LinkRule.radioComSendDataNow (hI : LinkRule I) (h : I c) : I c.radioComSendDataNow :=
  hI.loaded _ 0 (hI.radioLinkTxSendPacket (hI.storeAt h _ _ _) payloadTypeData)

theorem LinkRule.startPacket (hI : LinkRule I) (h : I c) : I c.startPacket := by
  unfold Com.startPacket
  split_ifs
  · exact hI.interrupt _ (hI.pointers _ _ _ h)
  · exact h

theorem LinkRule.appendByte (hI : LinkRule I) (h : I c) (byte : UInt8) : I (c.appendByte byte) := by
  have hpointer : I { c with txPointer := c.txPointer.next } := hI.pointers _ _ c.packetPointer h
  exact hI.loaded _ _ (hI.storeAt hpointer _ _ _)

theorem LinkRule.radioComTxSendByte (hI : LinkRule I) (h : I c) (byte : UInt8) :
    I (c.radioComTxSendByte byte) := by
  have happend := hI.appendByte (hI.startPacket h) byte
  unfold Com.radioComTxSendByte
  split_ifs
  · exact hI.radioComSendDataNow (hI.interrupt _ happend)
  · exact happend

theorem noticeReset_preserves (hinterrupt : ∀ c, I c → I c.interrupt)
    (hclear : ∀ c, I c → I c.clearResetPacketReceived)
    (hsoon : ∀ c, I c → I { c with sendSignalsSoon := true }) (h : I c) : I c.noticeReset := by
  have hi := hinterrupt _ h
  unfold noticeReset
  split_ifs
  · exact hsoon _ (hinterrupt _ (hclear _ hi))
  · exact hi

structure TxRule (I : Com → Prop) : Prop where
  serviceable : ∀ c, I c → c.link.Serviceable
  interrupt : ∀ c, I c → I c.interrupt
  notice : ∀ c, I c → I c.noticeReset
  data : ∀ c, I c → c.txBytesLoaded ≠ 0 → I c.radioComSendDataNow
  signals : ∀ c, I c → c.txBytesLoaded = 0 → c.link.radioLinkTxQueued < 15 →
    I c.radioComSendControlSignalsNow

theorem TxRule.flushData (hI : TxRule I) (h : I c) : I c.flushData := by
  unfold Com.flushData
  split_ifs with hl
  · exact hI.interrupt _ (hI.data _ h hl)
  · exact h

theorem flushData_txBytesLoaded (c : Com) : c.flushData.txBytesLoaded = 0 := by
  unfold flushData
  split_ifs with hl
  · rfl
  · exact not_not.mp hl

theorem TxRule.radioComTxService (hI : TxRule I) (h : I c) : I c.radioComTxService := by
  have hnotice := hI.notice _ h
  have hflush := hI.flushData hnotice
  unfold Com.radioComTxService
  split_ifs with hsoon havail hl
  · have hserves := (serves_interrupt (hI.serviceable _ hflush)).1.queued
    have hsum := c.noticeReset.flushData.link.radioLinkTxAvailable_add_queued
    exact hI.signals _ (hI.interrupt _ hflush) (flushData_txBytesLoaded _) (by omega)
  · exact hflush
  · exact hI.data _ (hI.interrupt _ hnotice) hl.1
  · exact hnotice

end Com
end WixelSdk.RadioCom
