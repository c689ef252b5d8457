import WixelSdk.RadioLinkAir
import WixelSdk.RadioLinkInterrupt

/-!
# One packet from the API to the frame and back

`Carries buf p` says that a packet buffer holds the packet `p` ready to be transmitted. What
`radioLinkTxSendPacket` leaves has it, and every transmission keeps it, with a header that depends on
this transmission only. A receiver takes the packet out of the frame exactly if it has a payload.
-/

namespace WixelSdk.RadioLink
open RadioMac StopAndWait

structure Carries (buf : Buf) (p : Packet) : Prop where
  length : (buf 0).toNat = p.payload.length + 1
  payloadType : buf 1 &&& payloadTypeMask = p.payloadType <<< 1
  payload : payload buf p.payload.length = p.payload

variable {buf old : Buf} {p : Packet} {t : UInt8} {k : Kind}

theorem shiftLeft_and_mask (ht : t ≤ 15) : t <<< 1 &&& payloadTypeMask = t <<< 1 := by
  revert t
  apply forall_byte
  decide +kernel

theorem shiftLeft_shiftRight (ht : t ≤ 15) : (t <<< 1) >>> 1 = t := by
  revert t
  apply forall_byte
  decide +kernel

theorem header_and_packetTypeMask (h : UInt8) (k : Kind) (seq : Bool) :
    header h (packetType k) seq &&& packetTypeMask = packetType k := by
  revert h
  apply forall_byte
  cases k <;> cases seq <;> decide +kernel

theorem header_and_one (h : UInt8) (k : Kind) (seq : Bool) :
    header h (packetType k) seq &&& 1 = bit seq := by
  revert h
  apply forall_byte
  cases k <;> cases seq <;> decide +kernel

theorem Carries.congr {buf' : Buf} (h : Carries buf p) (h₀ : buf' 0 = buf 0)
    (h₁ : buf' 1 &&& payloadTypeMask = buf 1 &&& payloadTypeMask)
    (h₂ : ∀ i, 2 ≤ i → i ≤ (buf 0).toNat → buf' i = buf i) : Carries buf' p where
  length := by rw [h₀, h.length]
  payloadType := h₁.trans h.payloadType
  payload := by
    refine (payload_congr fun i hi => h₂ (2 + i) (by omega) ?_).trans h.payload
    rw [h.length]
    omega

theorem Carries.header (h : Carries buf p) (k : Kind) (seq : Bool) :
    Carries (Function.update buf 1 (header (buf 1) (packetType k) seq)) p := by
  refine h.congr rfl ?_ fun i hi _ => Function.update_of_ne (by omega) _ _
  rw [Function.update_self, payloadType_header]

theorem Carries.frameBytes (h : Carries buf p) (hp : p.payload.length ≤ payloadSize)
    (status : List UInt8) {i : ℕ} (hi : i ≤ (buf 0).toNat) :
    dmaStore (maxPacketSize + 3) (frameBytes buf ++ status) old i = buf i := by
  refine dmaStore_frameBytes buf old status ?_ hi
  rw [h.length]
  simp only [payloadSize, maxPacketSize] at *
  omega

/-- The frame arrives unmodified. -/
theorem Carries.received (h : Carries buf p) (hp : p.payload.length ≤ payloadSize)
    (status : List UInt8) :
    Carries (dmaStore (maxPacketSize + 3) (RadioLink.frameBytes buf ++ status) old) p := by
  have hbyte : ∀ i, i ≤ (buf 0).toNat →
      dmaStore (maxPacketSize + 3) (RadioLink.frameBytes buf ++ status) old i = buf i :=
    fun i hi => h.frameBytes hp status hi
  have hlength := h.length
  refine h.congr (hbyte 0 (Nat.zero_le _)) ?_ fun i _ hi => hbyte i hi
  rw [hbyte 1 (by omega)]

namespace Node

variable {n m r : Node} {slot : ℕ}

theorem carries_radioLinkTxSendPacket (hp : (n.populated t).payload.length ≤ payloadSize)
    (ht : t ≤ 15) : Carries
      ((n.radioLinkTxSendPacket t).radioLinkTxPacket n.radioLinkTxMainLoopIndex)
      (n.populated t) := by
  have hlen : (n.populated t).payload.length =
      (n.radioLinkTxPacket n.radioLinkTxMainLoopIndex 1).toNat := length_payload _ _
  have hbuf : (n.radioLinkTxSendPacket t).radioLinkTxPacket n.radioLinkTxMainLoopIndex =
      Function.update (Function.update (n.radioLinkTxPacket n.radioLinkTxMainLoopIndex) 0
        (n.radioLinkTxPacket n.radioLinkTxMainLoopIndex 1 + 1)) 1 (t <<< 1) := by
    simp only [radioLinkTxSendPacket, radioMacStrobe, advanceTxMainLoopIndex, record, writeTxHeader,
      storeTx, Function.update_self]
  rw [hbuf]
  refine ⟨?_, ?_, ?_⟩
  · rw [Function.update_of_ne Nat.zero_ne_one, Function.update_self, UInt8.toNat_add,
      UInt8.toNat_one, hlen, Nat.mod_eq_of_lt]
    rw [hlen] at hp
    simp only [payloadSize] at hp
    omega
  · rw [Function.update_self]
    exact shiftLeft_and_mask ht
  · rw [hlen]
    apply payload_congr
    intro i _
    rw [Function.update_of_ne (by omega), Function.update_of_ne (by omega)]

/-- A transmission with the given packet type and sequence bit of the packet at the head of the
queue. -/
def transmit (n : Node) (x : Kind × Bool) : Node :=
  { n with txSequenceBit := x.2 }.txDataPacket (packetType x.1)

def transmissions (n : Node) (xs : List (Kind × Bool)) : Node := xs.foldl transmit n

theorem frame_transmit (n : Node) (x : Kind × Bool) : (n.transmit x).frame =
    Function.update (n.radioLinkTxPacket n.radioLinkTxInterruptIndex) 1
      (header (n.radioLinkTxPacket n.radioLinkTxInterruptIndex 1) (packetType x.1) x.2) :=
  Function.update_self _ _ _

theorem carries_transmit
    (h : Carries (n.radioLinkTxPacket n.radioLinkTxInterruptIndex) p) (x : Kind × Bool) :
    Carries (n.transmit x).frame p := by
  rw [frame_transmit]
  exact h.header _ _

theorem carries_transmissions (h : Carries (n.radioLinkTxPacket n.radioLinkTxInterruptIndex) p)
    (xs : List (Kind × Bool)) : Carries ((n.transmissions xs).radioLinkTxPacket
      (n.transmissions xs).radioLinkTxInterruptIndex) p := by
  induction xs generalizing n with
  | nil => exact h
  | cons x xs ih => exact ih (carries_transmit h x)

theorem header_transmit (h : Carries (n.radioLinkTxPacket n.radioLinkTxInterruptIndex) p)
    (x : Kind × Bool) :
    (n.transmit x).frame 1 = p.payloadType <<< 1 ||| packetType x.1 ||| bit x.2 := by
  rw [frame_transmit, Function.update_self, header, h.payloadType]

/-! ### The receiver -/

structure Listens (r : Node) : Prop where
  armed : r.ArmedRx
  receiving : r.mac.radioMacState = .rx

/-- The node as the handler finds it when the frame and the status bytes of the radio have been
received. -/
def heard (r : Node) (frame : Buf) (status : List UInt8) : Node :=
  (r.dmaReceive (frameBytes frame ++ status)).beforeHandler

def hear (r : Node) (frame : Buf) (status : List UInt8) (readings : Readings) : Node :=
  (r.dmaReceive (frameBytes frame ++ status)).radioMacEvent readings .rx

theorem hear_of_crcPassed {frame : Buf} {status : List UInt8} {readings : Readings}
    (hc : readings.crcPassed = true) : r.hear frame status readings =
      { (r.heard frame status).handleGoodCrc with
        mac := (r.heard frame status).handleGoodCrc.mac.afterHandler } := by
  have hhandler : radioMacEventHandler readings .rx (r.heard frame status) =
      (r.heard frame status).handleGoodCrc := if_pos hc
  rw [← hhandler]
  rfl

theorem Listens.heard (h : r.Listens) (frame : Buf) (status : List UInt8) :
    (r.heard frame status).currentRxPacket =
      dmaStore (maxPacketSize + 3) (frameBytes frame ++ status) r.currentRxPacket ∧
    (r.heard frame status).radioLinkRxInterruptIndex = r.radioLinkRxInterruptIndex ∧
    (r.heard frame status).radioLinkRxMainLoopIndex = r.radioLinkRxMainLoopIndex ∧
    (r.heard frame status).acceptAnySequenceBit = r.acceptAnySequenceBit ∧
    (r.heard frame status).rxSequenceBit = r.rxSequenceBit := by
  refine ⟨currentRxPacket_dmaReceive h.armed h.receiving _, ?_⟩
  have he : r.dmaReceive (frameBytes frame ++ status) = r.setBuffer
      (dmaStore (maxPacketSize + 3) (frameBytes frame ++ status)
        (r.radioLinkRxPacket r.radioLinkRxInterruptIndex))
      (.radioLinkRxPacket r.radioLinkRxInterruptIndex) := by
    simp only [dmaReceive, h.receiving, h.armed h.receiving, buffer]
  rw [Node.heard, he]
  exact ⟨rfl, rfl, rfl, rfl⟩

theorem respond_rxInterruptIndex (n : Node) (k : Kind) :
    (n.respond k).radioLinkRxInterruptIndex = n.radioLinkRxInterruptIndex := by
  unfold respond
  split_ifs <;> rfl

theorem takeInitiative_rxInterruptIndex (n : Node) :
    n.takeInitiative.radioLinkRxInterruptIndex = n.radioLinkRxInterruptIndex := by
  unfold takeInitiative
  split_ifs <;> rfl

theorem heedAck_rxMainLoopIndex (n : Node) (header : UInt8) :
    (n.heedAck header).radioLinkRxMainLoopIndex = n.radioLinkRxMainLoopIndex := by
  unfold heedAck handleAck
  split_ifs <;> rfl

theorem heedAck_expects (n : Node) (header : UInt8) :
    (n.heedAck header).acceptAnySequenceBit = n.acceptAnySequenceBit ∧
      (n.heedAck header).rxSequenceBit = n.rxSequenceBit := by
  unfold heedAck handleAck
  split_ifs <;> exact ⟨rfl, rfl⟩

/-- A frame moves the index of the RX ring only when its packet is accepted and acknowledged. -/
theorem handleGoodCrc_of_moved
    (h : n.handleGoodCrc.radioLinkRxInterruptIndex ≠ n.radioLinkRxInterruptIndex) :
    n.handleGoodCrc = ((n.heedAck (n.currentRxPacket 1)).acceptPacket).respond .ack ∧
      1 < n.currentRxPacket 0 := by
  unfold handleGoodCrc handleData offerPacket at h ⊢
  split_ifs at h ⊢ with hreset hlong hnew hroom
  · exact absurd rfl h
  · exact ⟨rfl, hlong⟩
  · exact absurd ((respond_rxInterruptIndex _ _).trans (heedAck_rxInterruptIndex _ _)) h
  · exact absurd ((respond_rxInterruptIndex _ _).trans (heedAck_rxInterruptIndex _ _)) h
  · exact absurd ((takeInitiative_rxInterruptIndex _).trans (heedAck_rxInterruptIndex _ _)) h

theorem handleGoodCrc_of_new (hkind : kindOf (n.currentRxPacket 1) ≠ .reset)
    (hlong : 1 < n.currentRxPacket 0)
    (hnew : n.acceptAnySequenceBit = true ∨ n.rxSequenceBit ≠ seqOf (n.currentRxPacket 1))
    (hroom : Ring.next rxPacketCount n.radioLinkRxInterruptIndex ≠ n.radioLinkRxMainLoopIndex) :
    n.handleGoodCrc = ((n.heedAck (n.currentRxPacket 1)).acceptPacket).respond .ack := by
  obtain ⟨hany, hbit⟩ := n.heedAck_expects (n.currentRxPacket 1)
  rw [handleGoodCrc, if_neg fun hr => hkind ((kindOf_eq_reset _).mpr hr), handleData, if_pos hlong,
    offerPacket, hany, hbit, heedAck_currentRxPacket, heedAck_rxInterruptIndex,
    heedAck_rxMainLoopIndex, if_pos hnew, if_pos hroom]

theorem handleGoodCrc_of_short (hkind : kindOf (n.currentRxPacket 1) ≠ .reset)
    (hshort : ¬ 1 < n.currentRxPacket 0) :
    n.handleGoodCrc = (n.heedAck (n.currentRxPacket 1)).takeInitiative := by
  rw [handleGoodCrc, if_neg fun hr => hkind ((kindOf_eq_reset _).mpr hr), handleData, if_neg hshort]

/-- The packet is in the RX ring, in the buffer that the interrupt used before. -/
def Takes (r r' : Node) (p : Packet) : Prop :=
  r'.radioLinkRxInterruptIndex = Ring.next rxPacketCount r.radioLinkRxInterruptIndex ∧
    rxPacketOf (r'.radioLinkRxPacket r.radioLinkRxInterruptIndex) = p

def Acknowledges (n : Node) : Prop := ∃ frame ∈ n.transmitting, kindOf (frame 1) = .ack

theorem takes_acceptPacket (h : Carries n.currentRxPacket p) (ht : p.payloadType ≤ 15)
    (hlong : 1 < n.currentRxPacket 0) : n.Takes n.acceptPacket p := by
  refine ⟨rfl, ?_⟩
  have hpacket : n.acceptPacket.radioLinkRxPacket n.radioLinkRxInterruptIndex =
      Function.update (Function.update n.currentRxPacket 1 (n.currentRxPacket 0 - 1)) 0
        ((n.currentRxPacket 1 &&& payloadTypeMask) >>> 1) := Function.update_self _ _ _
  rw [hpacket, rxPacketOf_accepted _ _ rfl (UInt8.lt_iff_toNat_lt.mp hlong), txPacketOf, h.length,
    Nat.add_sub_cancel, h.payload, h.payloadType, shiftLeft_shiftRight ht]

theorem kindOf_txDataPacket (n : Node) (k : Kind) :
    kindOf ((n.txDataPacket (packetType k)).frame 1) = k := by
  have hframe : (n.txDataPacket (packetType k)).frame = _ := n.frame_transmit (k, n.txSequenceBit)
  rw [hframe, Function.update_self, kindOf_header]

theorem acknowledges_respond (n : Node) : (n.respond .ack).Acknowledges := by
  unfold respond
  split_ifs
  · exact ⟨_, if_pos rfl, n.kindOf_txDataPacket .ack⟩
  · exact ⟨_, if_pos rfl, kindOf_packetType .ack⟩

theorem not_acknowledges_takeInitiative (n : Node) : ¬ n.takeInitiative.Acknowledges := by
  rintro ⟨frame, hframe, hkind⟩
  unfold takeInitiative at hframe
  split_ifs at hframe
  · obtain rfl := Option.some.inj ((if_pos rfl).symm.trans hframe)
    cases (kindOf_packetType .reset).symm.trans hkind
  · obtain rfl := Option.some.inj ((if_pos rfl).symm.trans hframe)
    cases (n.kindOf_txDataPacket .ping).symm.trans hkind
  · cases hframe

variable {frame : Buf} {status : List UInt8} {readings : Readings}

/-- The RX event of a frame whose packet is accepted. -/
theorem takes_of_accepted (h : Carries frame p) (hp : p.payload.length ≤ payloadSize)
    (ht : p.payloadType ≤ 15) (hr : r.Listens) (hc : readings.crcPassed = true)
    (haccepted : (r.heard frame status).handleGoodCrc =
      (((r.heard frame status).heedAck
        ((r.heard frame status).currentRxPacket 1)).acceptPacket).respond .ack)
    (hlong : 1 < (r.heard frame status).currentRxPacket 0) :
    r.Takes (r.hear frame status readings) p ∧ (r.hear frame status readings).Acknowledges := by
  obtain ⟨hcurrent, hindex, -⟩ := hr.heard frame status
  have hcarries : Carries (r.heard frame status).currentRxPacket p := by
    rw [hcurrent]
    exact h.received hp status
  obtain ⟨hmoved, hpacket⟩ := takes_acceptPacket
    (n := (r.heard frame status).heedAck ((r.heard frame status).currentRxPacket 1))
    (by rwa [heedAck_currentRxPacket]) ht (by rwa [heedAck_currentRxPacket])
  rw [hear_of_crcPassed hc, haccepted]
  rw [heedAck_rxInterruptIndex, hindex] at hmoved hpacket
  refine ⟨⟨(respond_rxInterruptIndex _ _).trans hmoved, ?_⟩, acknowledges_respond _⟩
  change rxPacketOf ((respond _ _).radioLinkRxPacket _) = p
  rw [respond_rxPacket]
  exact hpacket

/-- A frame with a packet, for a receiver that takes it. -/
theorem takes_of_moved (h : Carries frame p) (hp : p.payload.length ≤ payloadSize)
    (ht : p.payloadType ≤ 15) (hr : r.Listens) (hc : readings.crcPassed = true)
    (hmoved : (r.hear frame status readings).radioLinkRxInterruptIndex ≠
      r.radioLinkRxInterruptIndex) : r.Takes (r.hear frame status readings) p := by
  rw [hear_of_crcPassed hc, ← (hr.heard frame status).2.1] at hmoved
  obtain ⟨haccepted, hlong⟩ := handleGoodCrc_of_moved hmoved
  exact (takes_of_accepted h hp ht hr hc haccepted hlong).1

/-- A frame that is not a repetition, for a receiver with a free buffer. -/
theorem takes_iff (h : Carries frame p) (hp : p.payload.length ≤ payloadSize)
    (ht : p.payloadType ≤ 15) (hk : kindOf (frame 1) ≠ .reset) (hr : r.Listens)
    (hnew : r.acceptAnySequenceBit = true ∨ r.rxSequenceBit ≠ seqOf (frame 1))
    (hroom : Ring.next rxPacketCount r.radioLinkRxInterruptIndex ≠ r.radioLinkRxMainLoopIndex)
    (hc : readings.crcPassed = true) :
    (r.Takes (r.hear frame status readings) p ↔ 1 ≤ p.payload.length) ∧
      ((r.hear frame status readings).Acknowledges ↔ 1 ≤ p.payload.length) := by
  obtain ⟨hcurrent, hindex, hmain, hany, hbit⟩ := hr.heard frame status
  have hlength := h.length
  have hbyte : ∀ i ≤ 1, (r.heard frame status).currentRxPacket i = frame i := fun i hi => by
    rw [hcurrent]
    exact h.frameBytes hp status (by omega)
  have hlong : 1 < (r.heard frame status).currentRxPacket 0 ↔ 1 ≤ p.payload.length := by
    rw [hbyte 0 (Nat.zero_le _), UInt8.lt_iff_toNat_lt, hlength, UInt8.toNat_one]
    omega
  have hkind : kindOf ((r.heard frame status).currentRxPacket 1) ≠ .reset := by
    rwa [hbyte 1 (Nat.le_refl _)]
  by_cases hdata : 1 ≤ p.payload.length
  · have haccepted := handleGoodCrc_of_new hkind (hlong.mpr hdata)
      (by rwa [hany, hbit, hbyte 1 (Nat.le_refl _)]) (by rwa [hindex, hmain])
    obtain ⟨htakes, hacknowledges⟩ := takes_of_accepted h hp ht hr hc haccepted (hlong.mpr hdata)
    exact ⟨iff_of_true htakes hdata, iff_of_true hacknowledges hdata⟩
  · have hshort := handleGoodCrc_of_short hkind (mt hlong.mp hdata)
    rw [hear_of_crcPassed hc, hshort]
    refine ⟨iff_of_false (fun htakes => ?_) hdata,
      iff_of_false (not_acknowledges_takeInitiative _) hdata⟩
    have hstays := (takeInitiative_rxInterruptIndex _).trans
      ((heedAck_rxInterruptIndex _ ((r.heard frame status).currentRxPacket 1)).trans hindex)
    exact Ring.next_ne_self (by decide) (htakes.1.symm.trans hstays)

theorem radioLinkTxCurrentPacket_eq_some (hslot : n.radioLinkTxCurrentPacket = some slot) :
    slot = n.radioLinkTxMainLoopIndex := by
  unfold radioLinkTxCurrentPacket at hslot
  split_ifs at hslot
  exact (Option.some.inj hslot).symm

/-- The buffer at the head of the TX queue is the one that the packet was queued in. -/
theorem carries_queued (hslot : n.radioLinkTxCurrentPacket = some slot)
    (hp : (n.populated t).payload.length ≤ payloadSize) (ht : t ≤ 15)
    (hm : m.radioLinkTxPacket m.radioLinkTxInterruptIndex =
      (n.radioLinkTxSendPacket t).radioLinkTxPacket slot) :
    Carries (m.radioLinkTxPacket m.radioLinkTxInterruptIndex) (n.populated t) := by
  rw [hm, radioLinkTxCurrentPacket_eq_some hslot]
  exact carries_radioLinkTxSendPacket hp ht

/-- What the main loop sees of its current RX packet. -/
theorem presents_current {v : Node} {i : ℕ} (hv : v.radioLinkRxCurrentPacket = some i)
    (hpacket : rxPacketOf (v.radioLinkRxPacket i) = p) :
    v.radioLinkRxCurrentPayloadType = p.payloadType ∧
      (v.radioLinkRxPacket i 1).toNat = p.payload.length ∧
      payload (v.radioLinkRxPacket i) p.payload.length = p.payload := by
  have hmain : v.radioLinkRxMainLoopIndex = i := by
    unfold radioLinkRxCurrentPacket at hv
    split_ifs at hv
    exact Option.some.inj hv
  have hpayload : payload (v.radioLinkRxPacket i) (v.radioLinkRxPacket i 1).toNat = p.payload :=
    congrArg Packet.payload hpacket
  have hlength := congrArg List.length hpayload
  rw [length_payload] at hlength
  refine ⟨?_, hlength, ?_⟩
  · rw [radioLinkRxCurrentPayloadType, hmain]
    exact congrArg Packet.payloadType hpacket
  · rw [← hlength]
    exact hpayload

/-- Every frame that a queued packet is sent in has a header of its own, and a receiver that takes it
presents the packet that the main loop has populated. -/
theorem frame_round_trip (hslot : n.radioLinkTxCurrentPacket = some slot)
    (hp : (n.populated t).Valid)
    (hm : m.radioLinkTxPacket m.radioLinkTxInterruptIndex =
      (n.radioLinkTxSendPacket t).radioLinkTxPacket slot)
    (xs : List (Kind × Bool)) (k : Kind) (seq : Bool) :
    let frame := ((m.transmissions xs).transmit (k, seq)).frame
    (frame 0).toNat = (n.populated t).payload.length + 1 ∧
    frame 1 = t <<< 1 ||| packetType k ||| bit seq ∧
    frame 1 &&& packetTypeMask = packetType k ∧ frame 1 &&& 1 = bit seq ∧
    ∀ r status readings, Listens r → readings.crcPassed = true →
      (r.hear frame status readings).radioLinkRxInterruptIndex ≠ r.radioLinkRxInterruptIndex →
      ∀ v : Node, v.radioLinkRxCurrentPacket = some r.radioLinkRxInterruptIndex →
        v.radioLinkRxPacket r.radioLinkRxInterruptIndex =
          (r.hear frame status readings).radioLinkRxPacket r.radioLinkRxInterruptIndex →
        v.radioLinkRxCurrentPayloadType = t ∧
        (v.radioLinkRxPacket r.radioLinkRxInterruptIndex 1).toNat =
          (n.populated t).payload.length ∧
        payload (v.radioLinkRxPacket r.radioLinkRxInterruptIndex)
          (n.populated t).payload.length = (n.populated t).payload := by
  obtain ⟨-, hlen, ht⟩ := hp
  have hsent := carries_transmissions (carries_queued hslot hlen ht hm) xs
  have hframe := carries_transmit hsent (k, seq)
  have hheader := header_transmit hsent (k, seq)
  refine ⟨hframe.length, hheader, ?_, ?_, fun r status readings hr hc hmoved v hv hbuf => ?_⟩
  · rw [frame_transmit, Function.update_self]
    exact header_and_packetTypeMask _ _ _
  · rw [frame_transmit, Function.update_self]
    exact header_and_one _ _ _
  · obtain ⟨-, hpacket⟩ := takes_of_moved hframe hlen ht hr hc hmoved
    rw [← hbuf] at hpacket
    exact presents_current hv hpacket

/-- A queued packet, sent as a PING or with a NAK or an ACK, is accepted and acknowledged by a
receiver with a free buffer that has not yet accepted it if and only if its payload is not empty. -/
theorem queued_packet_delivered_iff (hslot : n.radioLinkTxCurrentPacket = some slot)
    (hp : (n.populated t).payload.length ≤ payloadSize) (ht : t ≤ 15)
    (hm : m.radioLinkTxPacket m.radioLinkTxInterruptIndex =
      (n.radioLinkTxSendPacket t).radioLinkTxPacket slot)
    (xs : List (Kind × Bool)) (hk : k ≠ .reset) (seq : Bool) (hr : r.Listens)
    (hnew : r.acceptAnySequenceBit = true ∨ r.rxSequenceBit ≠ seq)
    (hroom : Ring.next rxPacketCount r.radioLinkRxInterruptIndex ≠ r.radioLinkRxMainLoopIndex)
    (status : List UInt8) (hc : readings.crcPassed = true) :
    let r' := r.hear ((m.transmissions xs).transmit (k, seq)).frame status readings
    (r.Takes r' (n.populated t) ↔ 1 ≤ (n.populated t).payload.length) ∧
      (r'.Acknowledges ↔ 1 ≤ (n.populated t).payload.length) := by
  have hsent := carries_transmissions (carries_queued hslot hp ht hm) xs
  have hheader : ((m.transmissions xs).transmit (k, seq)).frame 1 = _ :=
    (congrFun (frame_transmit _ _) 1).trans (Function.update_self _ _ _)
  refine takes_iff (carries_transmit hsent (k, seq)) hp ht ?_ hr ?_ hroom hc
  · rw [hheader, kindOf_header]
    exact hk
  · rw [hheader, seqOf_header]
    exact hnew

/-- A connected node that listens. -/
def connected : Node :=
  [Irq.event .strobe ⟨true, 0⟩, .event .tx ⟨true, 0⟩, .dma [1, packetType .ack],
    .event .rx ⟨true, 0⟩].foldl Node.interrupt (powerUp.radioLinkInit 128)

/-- A connected node whose main loop has written a payload of the given bytes. -/
def written (payload : List UInt8) : Node :=
  payload.zipIdx.foldl (fun n x => n.storeTx 0 (2 + x.2) x.1)
    (connected.storeTx 0 1 (UInt8.ofNat payload.length))

theorem listens_connected : connected.Listens where
  armed := fun _ => by rfl
  receiving := by rfl

theorem frame_round_trip_written :
    ((((written [7, 8]).radioLinkTxSendPacket 5).transmissions [(.ping, false)]).transmit
      (.nak, true)).frame 1 = 0x4B := by
  have hslot : (written [7, 8]).radioLinkTxCurrentPacket = some 0 := by decide +kernel
  have hround := frame_round_trip (m := (written [7, 8]).radioLinkTxSendPacket 5) (t := 5) hslot
    (by decide +kernel) rfl [(.ping, false)] .nak true
  exact hround.2.1

theorem queued_packet_delivered_written :
    connected.Takes (connected.hear (((written [7, 8]).radioLinkTxSendPacket 5).transmit
      (.ping, false)).frame [] ⟨true, 0⟩) ⟨5, [7, 8]⟩ := by
  have hslot : (written [7, 8]).radioLinkTxCurrentPacket = some 0 := by decide +kernel
  have hcrc : (⟨true, 0⟩ : Readings).crcPassed = true := rfl
  have hiff := queued_packet_delivered_iff (m := (written [7, 8]).radioLinkTxSendPacket 5) (t := 5)
    (k := .ping) hslot (by decide +kernel) (by decide) rfl [] (by decide) false listens_connected
    (.inl (by decide +kernel)) (by decide +kernel) [] hcrc
  exact hiff.1.mpr (by decide +kernel)

/-- A connected node with a free buffer neither accepts nor acknowledges the frame of an empty
packet. -/
theorem empty_packet_ignored :
    (written []).radioLinkTxCurrentPacket = some 0 ∧ (written []).populated 0 = ⟨0, []⟩ ∧
    ((written []).radioLinkTxSendPacket 0).view.queue = [⟨0, []⟩] ∧
    connected.Listens ∧ connected.acceptAnySequenceBit = true ∧
    Ring.next rxPacketCount connected.radioLinkRxInterruptIndex ≠
      connected.radioLinkRxMainLoopIndex ∧
    ¬ connected.Takes (connected.hear (((written []).radioLinkTxSendPacket 0).transmit
      (.ping, false)).frame [] ⟨true, 0⟩) ⟨0, []⟩ ∧
    ¬ (connected.hear (((written []).radioLinkTxSendPacket 0).transmit (.ping, false)).frame []
      ⟨true, 0⟩).Acknowledges := by
  refine ⟨?_, ?_, ?_, listens_connected, ?_, ?_, fun htakes => ?_, fun hacknowledges => ?_⟩
  · decide +kernel
  · decide +kernel
  · decide +kernel
  · decide +kernel
  · decide +kernel
  · exact absurd htakes.1 (by decide +kernel)
  · obtain ⟨frame, hframe, -⟩ := hacknowledges
    rw [transmitting_of_rx (by decide +kernel)] at hframe
    cases hframe

end Node
end WixelSdk.RadioLink
