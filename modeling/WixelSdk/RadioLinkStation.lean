import WixelSdk.RadioLink
import WixelSdk.Transition

/-!
# A radio link node interleaved with its interrupt

A `Station` is a node together with the place of its main loop: `inSend` holds between the index
update of `radioLinkTxSendPacket` and its call of `radioMacStrobe`. The main loop takes one call at
a time, the DMA channel may store received bytes at any time, and the RF interrupt reports one event
at a time. `isrRf_run` shows that a run of `ISR(RF)` is a sequence of such events, so that what
holds for every interleaving of events holds for every interleaving of interrupts.
-/

namespace WixelSdk.RadioLink
open RadioMac Transition

structure Station where
  node : Node
  inSend : Bool

inductive Action
  | storeTx (offset : ℕ) (b : UInt8)
  | sendPacket (payloadType : UInt8)
  | strobe
  | rxDone
  | txQueueReset
  | changeChannel (channel : UInt8)
  | dma (bytes : List UInt8)
  | event (e : MacEvent) (r : Readings)
  | rfErrors (h : RfReadings)

namespace Station

def init (param_radio_channel : UInt8) : Station where
  node := Node.powerUp.radioLinkInit param_radio_channel
  inSend := false

def call (s : Station) (f : Node → Node) : Option Station :=
  if s.inSend then none else some ⟨f s.node, false⟩

def step (s : Station) : Action → Option Station
  | .storeTx offset b => s.call fun n => n.storeTx n.radioLinkTxMainLoopIndex offset b
  | .sendPacket t =>
      if s.inSend then none else some ⟨(s.node.writeTxHeader t).advanceTxMainLoopIndex, true⟩
  | .strobe => if s.inSend then some ⟨s.node.radioMacStrobe, false⟩ else none
  | .rxDone => s.call Node.radioLinkRxDoneWithPacket
  | .txQueueReset => s.call Node.radioLinkTxQueueReset
  | .changeChannel channel => s.call fun n => n.radioLinkChangeChannel channel
  | .dma bytes => some ⟨s.node.dmaReceive bytes, s.inSend⟩
  | .event e r =>
      if s.node.mac.Reports e then some ⟨s.node.radioMacEvent r e, s.inSend⟩ else none
  | .rfErrors h => some ⟨Node.client.reportErrors h s.node, s.inSend⟩

def act (n : Node) : Action → Node
  | .storeTx offset b => n.storeTx n.radioLinkTxMainLoopIndex offset b
  | .sendPacket t => (n.writeTxHeader t).advanceTxMainLoopIndex
  | .strobe => n.radioMacStrobe
  | .rxDone => n.radioLinkRxDoneWithPacket
  | .txQueueReset => n.radioLinkTxQueueReset
  | .changeChannel channel => n.radioLinkChangeChannel channel
  | .dma bytes => n.dmaReceive bytes
  | .event e r => n.radioMacEvent r e
  | .rfErrors h => Node.client.reportErrors h n

theorem step_node {s t : Station} {a : Action} (hs : s.step a = some t) :
    t.node = act s.node a := by
  cases a with
  | dma bytes =>
      obtain rfl := Option.some.inj hs
      rfl
  | rfErrors h =>
      obtain rfl := Option.some.inj hs
      rfl
  | _ =>
      simp only [step, call] at hs
      split_ifs at hs
      obtain rfl := Option.some.inj hs
      rfl

theorem inSend_of_step {s t : Station} {a : Action} (hs : s.step a = some t)
    (ht : t.inSend = false) : s.inSend = false ∨ a = .strobe := by
  cases a with
  | strobe => exact Or.inr rfl
  | dma bytes =>
      obtain rfl := Option.some.inj hs
      exact Or.inl ht
  | rfErrors h =>
      obtain rfl := Option.some.inj hs
      exact Or.inl ht
  | event e r =>
      simp only [step] at hs
      split_ifs at hs
      obtain rfl := Option.some.inj hs
      exact Or.inl ht
  | _ =>
      simp only [step, call] at hs
      split_ifs at hs with hin
      exact Or.inl (Bool.eq_false_iff.mpr hin)

/-- The use that the comments of radio_link.h allow: packets are written and sent only while
radioLinkTxCurrentPacket() is non-null, and released only while radioLinkRxCurrentPacket() is. -/
def Documented (s : Station) : Action → Prop
  | .storeTx offset _ => s.node.radioLinkTxCurrentPacket ≠ none ∧ 1 ≤ offset ∧ offset ≤ maxPacketSize
  | .sendPacket _ => s.node.radioLinkTxCurrentPacket ≠ none
  | .rxDone => s.node.radioLinkRxCurrentPacket ≠ none
  | .txQueueReset => False
  | .changeChannel _ => False
  | _ => True

instance (s : Station) (a : Action) : Decidable (Documented s a) := by
  rcases a with ⟨⟩ <;> dsimp only [Documented] <;> infer_instance

/-- Every run of the RF interrupt is a sequence of reported events, ending with its error bits. -/
theorem isrRf_run (h : RfReadings) (s : Station) {C : Station → Action → Prop}
    (hevent : ∀ t e, C t (.event e h.readings)) (herrors : ∀ t, C t (.rfErrors h)) :
    Run step C s ⟨s.node.isrRf h, s.inSend⟩ := by
  apply Node.client.isrRf_preserves (P := fun n => Run step C s ⟨n, s.inSend⟩) h
  · intro e n hn hrep
    refine hn.tail ⟨.event e h.readings, hevent _ _, ?_⟩
    have hrep' : n.mac.Reports e := hrep
    simp only [step, if_pos hrep']
    rfl
  · intro n hn
    exact hn.tail ⟨.rfErrors h, herrors _, rfl⟩
  · exact .refl

end Station
end WixelSdk.RadioLink
