import WixelSdk.RadioComPacking
import WixelSdk.RadioComReceive
import WixelSdk.RadioLinkTraffic

/-!
# The byte stream layer keeps to the documented use of the link

`Weaves c d` says that from `c` to `d` the main loop accesses the link only as it may, and that
`passed` records the interrupts that came in between. It holds of every call under the documented
rules, so that the traffic of a link below this layer is that of a node which `Traffic` describes.
-/

namespace WixelSdk.RadioCom
open RadioMac RadioLink Transition

namespace Com

variable {c d e : Com}

def Weaves (c d : Com) : Prop :=
  ∃ ps, d.passed = c.passed ++ ps ∧ c.link.Follows ps d.link

theorem Weaves.trans (h : Weaves c d) (h' : Weaves d e) : Weaves c e := by
  obtain ⟨ps, hps, hfollows⟩ := h
  obtain ⟨qs, hqs, hfollows'⟩ := h'
  exact ⟨ps ++ qs, by rw [hqs, hps, List.append_assoc], hfollows.trans hfollows'⟩

theorem Weaves.of_accesses (hp : d.passed = c.passed)
    (hl : Relation.ReflTransGen Node.Access c.link d.link) : Weaves c d :=
  ⟨[], by rw [hp, List.append_nil], hl⟩

theorem Weaves.of_access (hp : d.passed = c.passed) (hl : Node.Access c.link d.link) : Weaves c d :=
  .of_accesses hp (.single hl)

/-- The link is not accessed. -/
theorem Weaves.of_link (hp : d.passed = c.passed) (hl : d.link = c.link) : Weaves c d :=
  .of_accesses hp (by rw [hl])

theorem Weaves.refl (c : Com) : Weaves c c := .of_link rfl rfl

theorem weaves_interrupt (c : Com) : Weaves c c.interrupt :=
  ⟨_, rfl, Node.follows_visits c.link _⟩

theorem weaves_schedule (c : Com) (is : List (List Irq)) : Weaves c (c.schedule is) :=
  .of_link rfl rfl

/-! ### The receive side -/

/-- The main loop releases a packet, which stays in the ring whatever interrupts come first. -/
theorem weaves_done (h : c.link.Serviceable) (hin : c.link.view.inbox ≠ []) :
    Weaves c c.interrupt.radioLinkRxDoneWithPacket := by
  have hstill := rxStill_interrupt h
  obtain ⟨qs, -, hin', -⟩ := hstill.arrives
  have howned : c.interrupt.link.radioLinkRxCurrentPacket ≠ none := by
    obtain ⟨p, ps, hcons⟩ := List.exists_cons_of_ne_nil hin
    rw [hcons, List.cons_append] at hin'
    rw [(Node.inbox_cons hstill.serviceable.toInRange hin').1]
    exact Option.some_ne_none _
  exact (weaves_interrupt c).trans (.of_access rfl (.rxDone howned))

theorem weaves_takeSignals {slot : ℕ} (h : Reading c)
    (hf : Fetches c slot payloadTypeControlSignals) : Weaves c (c.interrupt.takeSignals slot) := by
  obtain ⟨p, ps, hin, -⟩ := hf.inbox h
  have hs := (rxStill_interrupt h.serviceable).serviceable
  have hnote : Weaves c.interrupt (c.interrupt.noteSignals (c.interrupt.rxByte slot 2)) :=
    .of_link rfl rfl
  have hdone := weaves_done (c := c.interrupt.noteSignals (c.interrupt.rxByte slot 2)) hs
    (hin ▸ List.cons_ne_nil p ps)
  exact ((weaves_interrupt c).trans hnote).trans hdone

theorem rxRule_weaves (c : Com) : RxRule fun d => Reading d ∧ Weaves c d where
  interrupt d h := ⟨h.1.still (rxStill_interrupt h.1.serviceable), h.2.trans (weaves_interrupt d)⟩
  load d _ h hf := ⟨(advances_loadPacket h.1 hf).reading,
    (h.2.trans (weaves_interrupt d)).trans (.of_link rfl rfl)⟩
  signals _ _ h hf := ⟨(advances_takeSignals h.1 hf).reading, h.2.trans (weaves_takeSignals h.1 hf)⟩

theorem weaves_receiveMorePackets (h : Reading c) (hd : c.receiveMorePackets = .ok d) :
    Weaves c d :=
  ((rxRule_weaves c).receiveMorePackets ⟨h, .refl c⟩ hd).2

theorem weaves_radioComRxReceiveByte (h : Reading c) (hl : c.rxBytesLeft ≠ 0) :
    Weaves c c.radioComRxReceiveByte.1 := by
  have hadvance : Weaves c c.advanceRx := .of_link rfl rfl
  simp only [radioComRxReceiveByte]
  split_ifs
  · obtain ⟨p, ps, hin, -⟩ := h.packet hl
    have hdone := weaves_done (c := c.advanceRx) h.serviceable (hin ▸ List.cons_ne_nil p ps)
    exact hadvance.trans hdone
  · exact hadvance

/-! ### The transmit side -/

theorem weaves_radioLinkTxSendPacket (h : c.link.Serviceable)
    (hfree : c.link.radioLinkTxQueued < 15) {t : UInt8} (ht : (c.link.populated t).Valid) :
    Weaves c (c.radioLinkTxSendPacket t) := by
  have hheader : Weaves c (c.writeTxHeader t) :=
    .of_accesses rfl (.tail (.single (.storeTx _ _)) (.storeTx _ _))
  obtain ⟨hserves, hs⟩ := serves_interrupt (c := c.writeTxHeader t) (h.writeTxHeader t)
  have hqueued : (c.writeTxHeader t).interrupt.link.radioLinkTxQueued < 15 :=
    Nat.lt_of_le_of_lt hserves.queued hfree
  have hcurrent : (c.writeTxHeader t).interrupt.link.radioLinkTxCurrentPacket ≠ none := by
    have hsum := (c.writeTxHeader t).interrupt.link.radioLinkTxAvailable_add_queued
    rw [Node.radioLinkTxCurrentPacket, if_neg (by omega)]
    exact Option.some_ne_none _
  have hvalid := ht
  rw [← txPacketOf_interrupt h ht] at hvalid
  have hadvance : Weaves (c.writeTxHeader t).interrupt
      (c.writeTxHeader t).interrupt.advanceTxMainLoopIndex :=
    .of_access rfl (.advance hcurrent hvalid)
  exact (((hheader.trans (weaves_interrupt _)).trans hadvance).trans (weaves_interrupt _)).trans
    (.of_access rfl .strobe)

theorem weaves_radioComSendDataNow (h : Open c) (hl : c.txBytesLoaded ≠ 0) :
    Weaves c c.radioComSendDataNow := by
  have hvalid := h.valid hl
  rw [← populated_storeTx] at hvalid
  have hlength : Weaves c { c with
      link := c.link.storeTx c.link.radioLinkTxMainLoopIndex 1 c.txBytesLoaded } :=
    .of_access rfl (.storeTx _ _)
  have hsend := weaves_radioLinkTxSendPacket (c := { c with
    link := c.link.storeTx c.link.radioLinkTxMainLoopIndex 1 c.txBytesLoaded })
    (h.serviceable.storeTx _ _ _) h.free hvalid
  unfold radioComSendDataNow
  rw [h.store_length]
  exact (hlength.trans hsend).trans (.of_link rfl rfl)

theorem weaves_radioComSendControlSignalsNow (h : c.link.Serviceable)
    (hfree : c.link.radioLinkTxQueued < 15) : Weaves c c.radioComSendControlSignalsNow := by
  have hi := still_interrupt (serviceable_writeSignals h hfree)
  have hwrite : Weaves c (c.writeSignals c.radioLinkTxCurrentPacket) := by
    rw [writeSignals_eq hfree]
    exact .of_accesses rfl (.tail (.single (.storeTx _ _)) (.storeTx _ _))
  have hqueued : (c.writeSignals c.radioLinkTxCurrentPacket).link.radioLinkTxQueued < 15 := by
    rw [writeSignals_eq hfree]
    exact hfree
  have hvalid := valid_signals c.radioComTxSignals
  rw [← populated_writeSignals h hfree] at hvalid
  exact (hwrite.trans (weaves_interrupt _)).trans
    (weaves_radioLinkTxSendPacket hi.serviceable (Nat.lt_of_le_of_lt hi.link.queued hqueued) hvalid)

theorem weaves_noticeReset (c : Com) : Weaves c c.noticeReset :=
  noticeReset_preserves (I := Weaves c) (fun d h => h.trans (weaves_interrupt d))
    (fun _ h => h.trans (.of_access rfl .clear)) (fun _ h => h.trans (.of_link rfl rfl)) (.refl c)

theorem txRule_weaves (c : Com) : TxRule fun d => Building d ∧ Weaves c d where
  serviceable _ h := h.1.serviceable
  interrupt d h := ⟨txRule_building.interrupt d h.1, h.2.trans (weaves_interrupt d)⟩
  notice d h := ⟨txRule_building.notice d h.1, h.2.trans (weaves_noticeReset d)⟩
  data d h hl := ⟨txRule_building.data d h.1 hl,
    h.2.trans (weaves_radioComSendDataNow (h.1.packet hl) hl)⟩
  signals d h hl hfree := ⟨txRule_building.signals d h.1 hl hfree,
    h.2.trans (weaves_radioComSendControlSignalsNow h.1.serviceable hfree)⟩

theorem weaves_radioComTxService (h : Building c) : Weaves c c.radioComTxService :=
  ((txRule_weaves c).radioComTxService ⟨h, .refl c⟩).2

theorem weaves_radioComTxControlSignals (h : Building c) (v : UInt8) :
    Weaves c (c.radioComTxControlSignals v) := by
  unfold Com.radioComTxControlSignals
  split_ifs
  · have hrequest : Weaves c (c.requestSignals v) := .of_link rfl rfl
    exact hrequest.trans (weaves_radioComTxService (h.requestSignals v))
  · exact .refl c

theorem weaves_radioComTxSendByte (h : Building c)
    (hroom : c.txBytesLoaded ≠ 0 ∨ c.link.radioLinkTxQueued < 15) (byte : UInt8) :
    Weaves c (c.radioComTxSendByte byte) := by
  obtain ⟨hopen, hloaded, -⟩ := startPacket_spec h hroom
  have hshort : c.startPacket.txBytesLoaded.toNat < payloadSize := hloaded ▸ h.short
  obtain ⟨hopen', -⟩ := appendByte_spec hopen hshort byte
  have hstart : Weaves c c.startPacket := by
    unfold startPacket
    split_ifs
    · have hpointers : Weaves c { c with
          txPointer := c.radioLinkTxCurrentPacket
          packetPointer := c.radioLinkTxCurrentPacket } := .of_link rfl rfl
      exact hpointers.trans (weaves_interrupt _)
    · exact .refl c
  have happend : Weaves c.startPacket (c.startPacket.appendByte byte) := by
    rw [hopen.appendByte_eq byte]
    exact .of_access rfl (.storeTx _ _)
  have hbyte := hstart.trans happend
  unfold Com.radioComTxSendByte
  split_ifs with hfull
  · have hi := still_interrupt hopen'.serviceable
    have hne : (c.startPacket.appendByte byte).interrupt.txBytesLoaded ≠ 0 := by
      rw [hi.txBytesLoaded, hfull]
      decide
    exact (hbyte.trans (weaves_interrupt _)).trans
      (weaves_radioComSendDataNow (hopen'.still hi) hne)
  · exact hbyte

end Com

namespace Host

variable {h t : Host} {a : HostAction}

/-- Every step under the documented rules, on one channel. -/
theorem weaves_step (hp : Packed h) (hr : Receiving h) (ha : Polled h a) (hrule : ReceiveRule h a)
    (hstay : StaysOnChannel a) (ht : h.step a = some t) : Com.Weaves h.com t.com := by
  have hsched : ∀ is, Com.Weaves h.com (h.com.schedule is) := Com.weaves_schedule h.com
  have hbuild : ∀ is, Com.Building (h.com.schedule is) := fun is =>
    hp.packing.toBuilding.still (Com.still_schedule hp.packing.serviceable is)
  have hread : ∀ is, Com.Reading (h.com.schedule is) := fun is =>
    hr.reading.still (Com.rxStill_schedule hr.reading.serviceable is)
  cases a with
  | changeChannel channel => exact hstay.elim
  | interrupts is =>
      obtain rfl := Option.some.inj ht
      exact ⟨_, rfl, Node.follows_visits h.com.link is⟩
  | txService is =>
      obtain rfl := Option.some.inj ht
      exact (hsched is).trans (Com.weaves_radioComTxService (hbuild is))
  | txAvailable =>
      obtain rfl := Option.some.inj ht
      exact .refl _
  | txSendByte byte is =>
      obtain rfl := Option.some.inj ht
      exact (hsched is).trans (Com.weaves_radioComTxSendByte (hbuild is) (hp.ready ha).2 byte)
  | txControlSignals v is =>
      obtain rfl := Option.some.inj ht
      exact (hsched is).trans (Com.weaves_radioComTxControlSignals (hbuild is) v)
  | rxAvailable is =>
      obtain ⟨d, hd, rfl⟩ := step_rxAvailable ht
      exact (hsched is).trans (Com.weaves_receiveMorePackets (hread is) hd)
  | rxReceiveByte is =>
      obtain rfl := Option.some.inj ht
      exact (hsched is).trans (Com.weaves_radioComRxReceiveByte (hread is) (hr.left hrule).2)
  | rxControlSignals is =>
      obtain ⟨d, hd, rfl⟩ := step_rxControlSignals ht
      have hmore := (hsched is).trans (Com.weaves_receiveMorePackets (hread is) hd)
      exact hmore.trans (.of_link rfl rfl)

end Host
end WixelSdk.RadioCom
