import WixelSdk.RadioLinkFrame

/-!
# The status bytes behind a frame

The radio appends RSSI and LQI to a frame, and the DMA channel stores them behind it in the RX
buffer. The handler of the RX event looks at the header before it looks at the length. Behind a frame
without a header the RSSI is in its place, and a node takes such a frame for a RESET or an ACK.
-/

namespace WixelSdk.RadioLink
open RadioMac StopAndWait

/-- What an RX event can change: the protocol bits, the ring indices of the interrupt, and the packet
that is given to the main loop. -/
@[ext]
structure Effect where
  sendingReset : Bool
  rxSequenceBit : Bool
  txSequenceBit : Bool
  radioLinkRxInterruptIndex : ℕ
  radioLinkTxInterruptIndex : ℕ
  radioLinkResetPacketReceived : Bool
  handedOver : Option Packet
  deriving DecidableEq, Repr

namespace Node

variable {n r : Node} {packet : Buf} {frame : Buf} {status : List UInt8} {readings : Readings}

def unchanged (n : Node) : Effect where
  sendingReset := n.sendingReset
  rxSequenceBit := n.rxSequenceBit
  txSequenceBit := n.txSequenceBit
  radioLinkRxInterruptIndex := n.radioLinkRxInterruptIndex
  radioLinkTxInterruptIndex := n.radioLinkTxInterruptIndex
  radioLinkResetPacketReceived := n.radioLinkResetPacketReceived
  handedOver := none

/-- The effect of an event between `r` and `n`. The main loop gets the buffer that the index of the
RX ring has left. -/
def effect (r n : Node) : Effect :=
  { n.unchanged with
    handedOver := if n.radioLinkRxInterruptIndex = r.radioLinkRxInterruptIndex then none
      else some (rxPacketOf (n.radioLinkRxPacket r.radioLinkRxInterruptIndex)) }

/-! ### The effect of a frame -/

/-- The frame has data, which is not a repetition, and there is a free buffer for it. -/
def Accepts (n : Node) (packet : Buf) : Prop :=
  1 < packet 0 ∧ (n.acceptAnySequenceBit = true ∨ n.rxSequenceBit ≠ seqOf (packet 1)) ∧
    Ring.next rxPacketCount n.radioLinkRxInterruptIndex ≠ n.radioLinkRxMainLoopIndex

instance (n : Node) (packet : Buf) : Decidable (n.Accepts packet) :=
  inferInstanceAs (Decidable (_ ∧ _ ∧ _))

/-- What a frame in the RX buffer does to the node. -/
def acts (n : Node) (packet : Buf) : Effect :=
  if kindOf (packet 1) = .reset then
    { n.unchanged with rxSequenceBit := true, radioLinkResetPacketReceived := true }
  else if n.Accepts packet then
    { (n.heedAck (packet 1)).unchanged with
      rxSequenceBit := seqOf (packet 1)
      radioLinkRxInterruptIndex := Ring.next rxPacketCount n.radioLinkRxInterruptIndex
      handedOver := some (txPacketOf packet) }
  else (n.heedAck (packet 1)).unchanged

theorem effect_of_stays (h : n.radioLinkRxInterruptIndex = r.radioLinkRxInterruptIndex) :
    r.effect n = n.unchanged := by
  rw [effect, if_pos h]
  rfl

@[simp] theorem unchanged_takeInitiative (n : Node) : n.takeInitiative.unchanged = n.unchanged := by
  unfold takeInitiative
  split_ifs <;> rfl

@[simp] theorem unchanged_respond (n : Node) (k : Kind) : (n.respond k).unchanged = n.unchanged := by
  unfold respond
  split_ifs <;> rfl

theorem effect_of_accepted (hlong : 1 < n.currentRxPacket 0) :
    n.effect (((n.heedAck (n.currentRxPacket 1)).acceptPacket).respond .ack) =
      { (n.heedAck (n.currentRxPacket 1)).unchanged with
        rxSequenceBit := seqOf (n.currentRxPacket 1)
        radioLinkRxInterruptIndex := Ring.next rxPacketCount n.radioLinkRxInterruptIndex
        handedOver := some (txPacketOf n.currentRxPacket) } := by
  have hindex := n.heedAck_rxInterruptIndex (n.currentRxPacket 1)
  have hcurrent := n.heedAck_currentRxPacket (n.currentRxPacket 1)
  have hmoved : (((n.heedAck (n.currentRxPacket 1)).acceptPacket).respond
      .ack).radioLinkRxInterruptIndex = Ring.next rxPacketCount n.radioLinkRxInterruptIndex := by
    rw [respond_rxInterruptIndex, ← hindex]
    rfl
  have hpacket : rxPacketOf ((((n.heedAck (n.currentRxPacket 1)).acceptPacket).respond
      .ack).radioLinkRxPacket n.radioLinkRxInterruptIndex) = txPacketOf n.currentRxPacket := by
    rw [respond_rxPacket]
    have hslot (m : Node) : m.acceptPacket.radioLinkRxPacket = Function.update m.radioLinkRxPacket
        m.radioLinkRxInterruptIndex (Function.update (Function.update m.currentRxPacket 1
          (m.currentRxPacket 0 - 1)) 0 ((m.currentRxPacket 1 &&& payloadTypeMask) >>> 1)) := rfl
    rw [hslot, hindex, Function.update_self, hcurrent]
    exact rxPacketOf_accepted n.currentRxPacket _ rfl (UInt8.lt_iff_toNat_lt.mp hlong)
  rw [effect, hmoved, if_neg (Ring.next_ne_self (by decide)), hpacket, unchanged_respond]
  exact Effect.ext rfl (congrArg (fun packet : Buf => seqOf (packet 1)) hcurrent) rfl
    (congrArg (Ring.next rxPacketCount) hindex) rfl rfl rfl

theorem unchanged_handleGoodCrc (hkind : kindOf (n.currentRxPacket 1) ≠ .reset)
    (hkept : ¬ n.Accepts n.currentRxPacket) :
    n.handleGoodCrc.unchanged = (n.heedAck (n.currentRxPacket 1)).unchanged := by
  obtain ⟨hany, hbit⟩ := n.heedAck_expects (n.currentRxPacket 1)
  rw [handleGoodCrc, if_neg (mt (kindOf_eq_reset _).mpr hkind), handleData]
  split_ifs with hlong
  · rw [unchanged_respond, offerPacket, hany, hbit, heedAck_currentRxPacket,
      heedAck_rxInterruptIndex, heedAck_rxMainLoopIndex]
    split_ifs with hnew hroom
    · exact absurd ⟨hlong, hnew, hroom⟩ hkept
    · rfl
    · rfl
  · exact unchanged_takeInitiative _

theorem effect_handleGoodCrc (n : Node) : n.effect n.handleGoodCrc = n.acts n.currentRxPacket := by
  unfold acts
  split_ifs with hkind haccepts
  · rw [handleGoodCrc, if_pos ((kindOf_eq_reset _).mp hkind)]
    exact effect_of_stays rfl
  · obtain ⟨hlong, hnew, hroom⟩ := haccepts
    rw [handleGoodCrc_of_new hkind hlong hnew hroom]
    exact effect_of_accepted hlong
  · have hkept := unchanged_handleGoodCrc hkind haccepts
    have hindex := congrArg Effect.radioLinkRxInterruptIndex hkept
    rw [effect_of_stays (hindex.trans (n.heedAck_rxInterruptIndex _)), hkept]

/-! ### Only the bytes of the frame count -/

def holding (r : Node) (old : Buf) : Node :=
  r.setBuffer old (.radioLinkRxPacket r.radioLinkRxInterruptIndex)

/-- Whatever the status bytes and the old contents of the buffer are, the frame has one effect, and
none at all if it has no header. -/
def ActsOnFrameOnly (r : Node) (frame : Buf) (readings : Readings) : Prop :=
  (∀ rssi lqi old rssi' lqi' old',
    r.effect ((r.holding old).hear frame [rssi, lqi] readings) =
      r.effect ((r.holding old').hear frame [rssi', lqi'] readings)) ∧
  ((frame 0).toNat = 0 → ∀ rssi lqi old,
    r.effect ((r.holding old).hear frame [rssi, lqi] readings) = r.unchanged)

/-- There is nothing to acknowledge and nothing to reset. -/
structure Settled (r : Node) : Prop where
  connected : r.sendingReset = false
  queue : r.radioLinkTxInterruptIndex = r.radioLinkTxMainLoopIndex
  rxSequenceBit : r.rxSequenceBit = true
  resetPacketReceived : r.radioLinkResetPacketReceived = true

theorem acts_congr {packet' : Buf} (h₀ : packet 0 = packet' 0) (h₁ : packet 1 = packet' 1)
    (h : txPacketOf packet = txPacketOf packet') : n.acts packet = n.acts packet' := by
  have haccepts : n.Accepts packet ↔ n.Accepts packet' := by rw [Accepts, Accepts, h₀, h₁]
  simp only [acts, haccepts, h₁, h]

theorem acts_eq (r : Node) (mac : Mac Buffer) (mem : ℕ → Buf) (packet : Buf) :
    { r with mac := mac, radioLinkRxPacket := mem }.acts packet = r.acts packet := by
  have hheed : ({ r with mac := mac, radioLinkRxPacket := mem }.heedAck (packet 1)).unchanged =
      (r.heedAck (packet 1)).unchanged := by
    unfold heedAck handleAck
    split_ifs <;> rfl
  unfold acts
  rw [hheed]
  rfl

/-- The bytes stored in the buffer decide. -/
theorem Listens.effect_hear (hr : r.Listens) (old : Buf) (hc : readings.crcPassed = true) :
    r.effect ((r.holding old).hear frame status readings) =
      r.acts (dmaStore (maxPacketSize + 3) (frameBytes frame ++ status) old) := by
  have hl : (r.holding old).Listens := ⟨hr.armed, hr.receiving⟩
  obtain ⟨hcurrent, hindex, -⟩ := hl.heard frame status
  have heffect := effect_handleGoodCrc ((r.holding old).heard frame status)
  have hold : (r.holding old).currentRxPacket = old := Function.update_self ..
  obtain ⟨mac, mem, hheard⟩ : ∃ mac mem, (r.holding old).heard frame status =
      { r with mac := mac, radioLinkRxPacket := mem } := by
    unfold Node.heard
    rcases hl.armed.dmaReceive_eq (frameBytes frame ++ status) with he | ⟨-, he⟩
    · rw [he]
      exact ⟨_, _, rfl⟩
    · rw [he]
      exact ⟨_, _, rfl⟩
  rw [hcurrent, hold, hheard, acts_eq, ← hheard] at heffect
  rw [← heffect, hear_of_crcPassed hc, effect, effect, hindex]
  rfl

/-- A frame with a header is stored as it was sent. -/
theorem acts_stored (r : Node) (old : Buf) (hmin : 1 ≤ (frame 0).toNat)
    (hmax : (frame 0).toNat ≤ maxPacketSize) :
    r.acts (dmaStore (maxPacketSize + 3) (frameBytes frame ++ status) old) = r.acts frame := by
  have hlt : (frame 0).toNat < maxPacketSize + 3 := by omega
  have hbyte : ∀ i ≤ (frame 0).toNat,
      dmaStore (maxPacketSize + 3) (frameBytes frame ++ status) old i = frame i :=
    fun i hi => dmaStore_frameBytes frame old status hlt hi
  refine acts_congr (hbyte 0 (Nat.zero_le _)) (hbyte 1 hmin) ?_
  refine txPacketOf_congr (hbyte 0 (Nat.zero_le _)) (by rw [hbyte 1 hmin]) fun i _ hi => ?_
  rw [hbyte 0 (Nat.zero_le _)] at hi
  exact hbyte i hi

/-- What a node makes of the RSSI behind a frame without a header. -/
theorem acts_stored_empty (r : Node) (old : Buf) (rssi lqi : UInt8) (h : (frame 0).toNat = 0) :
    r.acts (dmaStore (maxPacketSize + 3) (frameBytes frame ++ [rssi, lqi]) old) =
      if kindOf rssi = .reset then
        { r.unchanged with rxSequenceBit := true, radioLinkResetPacketReceived := true }
      else (r.heedAck rssi).unchanged := by
  have hbytes : frameBytes frame = [frame 0] := by
    rw [frameBytes, h]
    rfl
  have hlength : dmaStore (maxPacketSize + 3) (frameBytes frame ++ [rssi, lqi]) old 0 = 0 := by
    rw [hbytes]
    exact UInt8.toNat_inj.mp h
  have hheader : dmaStore (maxPacketSize + 3) (frameBytes frame ++ [rssi, lqi]) old 1 = rssi := by
    rw [hbytes]
    rfl
  have hrefused :
      ¬ r.Accepts (dmaStore (maxPacketSize + 3) (frameBytes frame ++ [rssi, lqi]) old) := by
    rintro ⟨hlong, -⟩
    rw [hlength] at hlong
    exact absurd hlong (by decide)
  rw [acts, hheader, if_neg hrefused]

theorem Settled.acts_stored_empty (hs : r.Settled) (old : Buf) (rssi lqi : UInt8)
    (h : (frame 0).toNat = 0) :
    r.acts (dmaStore (maxPacketSize + 3) (frameBytes frame ++ [rssi, lqi]) old) = r.unchanged := by
  rw [r.acts_stored_empty old rssi lqi h]
  split_ifs
  · exact Effect.ext rfl hs.rxSequenceBit.symm rfl rfl rfl hs.resetPacketReceived.symm rfl
  · unfold heedAck handleAck
    rw [hs.connected, hs.queue]
    split_ifs with hack hres hne
    · cases hres
    · exact absurd rfl hne
    · rfl
    · rfl

/-- Status bytes that look like a RESET and an ACK. -/
theorem settled_of_unchanged (h : (frame 0).toNat = 0) (hstays : ∀ rssi lqi old,
    r.acts (dmaStore (maxPacketSize + 3) (frameBytes frame ++ [rssi, lqi]) old) = r.unchanged) :
    r.Settled := by
  have hreset := hstays (packetType .reset) 0 r.currentRxPacket
  have hack := hstays (packetType .ack) 0 r.currentRxPacket
  rw [r.acts_stored_empty _ _ _ h, if_pos (kindOf_packetType .reset)] at hreset
  rw [r.acts_stored_empty _ _ _ h, if_neg (by rw [kindOf_packetType]; decide), heedAck,
    if_pos (by decide), handleAck] at hack
  have hconnected : r.sendingReset = false := by
    by_contra hres
    rw [if_pos ((Bool.not_eq_false _).mp hres)] at hack
    exact hres (congrArg Effect.sendingReset hack).symm
  refine ⟨hconnected, ?_, (congrArg Effect.rxSequenceBit hreset).symm,
    (congrArg Effect.radioLinkResetPacketReceived hreset).symm⟩
  by_contra hne
  rw [hconnected, if_neg Bool.false_ne_true, if_pos hne] at hack
  exact Ring.next_ne_self (by decide) (congrArg Effect.radioLinkTxInterruptIndex hack)

/-- A listening node acts on the bytes of a good frame only, if and only if the frame has a header
or there is nothing that an ACK or a RESET could change. -/
theorem actsOnFrameOnly_iff (hr : r.Listens) (hmax : (frame 0).toNat ≤ maxPacketSize)
    (hc : readings.crcPassed = true) :
    r.ActsOnFrameOnly frame readings ↔ 1 ≤ (frame 0).toNat ∨ r.Settled := by
  constructor
  · rintro ⟨-, hstays⟩
    refine (Nat.eq_zero_or_pos (frame 0).toNat).symm.imp_right fun h => ?_
    refine settled_of_unchanged h fun rssi lqi old => ?_
    rw [← hr.effect_hear old hc]
    exact hstays h rssi lqi old
  · intro h
    obtain ⟨e, hacts, hempty⟩ : ∃ e, (∀ rssi lqi old, r.acts (dmaStore (maxPacketSize + 3)
        (frameBytes frame ++ [rssi, lqi]) old) = e) ∧ ((frame 0).toNat = 0 → e = r.unchanged) := by
      rcases Nat.eq_zero_or_pos (frame 0).toNat with hzero | hmin
      · have hs : r.Settled := h.resolve_left (by omega)
        exact ⟨_, fun rssi lqi old => hs.acts_stored_empty old rssi lqi hzero, fun _ => rfl⟩
      · exact ⟨_, fun _ _ old => r.acts_stored old hmin hmax, fun hzero => absurd hmin (by omega)⟩
    refine ⟨fun rssi lqi old rssi' lqi' old' => ?_, fun hzero rssi lqi old => ?_⟩
    · rw [hr.effect_hear old hc, hr.effect_hear old' hc, hacts, hacts]
    · rw [hr.effect_hear old hc, hacts, hempty hzero]

def ackFrame : Buf := Function.update (fun _ => 1) 1 (packetType .ack)

theorem actsOnFrameOnly_ackFrame : connected.ActsOnFrameOnly ackFrame ⟨true, 0⟩ :=
  (actsOnFrameOnly_iff listens_connected (by decide) rfl).mpr (.inl (by decide))

def waiting : Node := (written [7, 8]).radioLinkTxSendPacket 5

/-- An empty frame with an RSSI of 0x80 acknowledges the packet, one with 0xC0 resets the link. -/
theorem empty_frame_acts :
    waiting.view.queue = [⟨5, [7, 8]⟩] ∧ waiting.Listens ∧
    (waiting.hear (fun _ => 0) [0x00, 0x80] ⟨true, 0⟩).view.queue = [⟨5, [7, 8]⟩] ∧
    (waiting.hear (fun _ => 0) [0x80, 0x80] ⟨true, 0⟩).view.queue = [] ∧
    (waiting.hear (fun _ => 0) [0x00, 0x80] ⟨true, 0⟩).radioLinkResetPacketReceived = false ∧
    (waiting.hear (fun _ => 0) [0xC0, 0x80] ⟨true, 0⟩).radioLinkResetPacketReceived = true ∧
    ¬ waiting.ActsOnFrameOnly (fun _ => 0) ⟨true, 0⟩ := by
  refine ⟨by decide +kernel, ⟨fun _ => by rfl, by rfl⟩, by decide +kernel, by decide +kernel,
    by decide +kernel, by decide +kernel, fun h => ?_⟩
  have hsame := congrArg Effect.radioLinkResetPacketReceived
    (h.1 0x00 0x80 waiting.currentRxPacket 0xC0 0x80 waiting.currentRxPacket)
  exact absurd hsame (by decide +kernel)

end Node
end WixelSdk.RadioLink
