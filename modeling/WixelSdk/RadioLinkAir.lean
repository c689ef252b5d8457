import WixelSdk.RadioLinkView

/-!
# Two radio link nodes on one channel

The air is half-duplex and lossy. A frame reaches the peer at most once, unmodified, in the same
step as the sender's TX event and only when the peer is in RX; every other TX event loses the frame,
and a node may report a bad CRC at any time. `view_step` shows that the pair of views takes a step
of the stop-and-wait protocol for each step of the nodes, or none.
-/

namespace WixelSdk.RadioLink
open RadioMac StopAndWait Transition

namespace Node

variable {n : Node}

/-- What holds of a node whatever its peer does. The main loop gets the accepted packets in order,
and those that it has not got are in the ring. -/
structure Sound (n : Node) : Prop extends n.InRange where
  rx : n.ArmedRx
  fits : n.Fits
  loaded : n.Loaded
  fifo : n.accepted = n.received ++ n.view.inbox

theorem sound_radioLinkInit (channel : UInt8) : (powerUp.radioLinkInit channel).Sound := by
  have h := consistent_radioLinkInit channel
  have hl : (powerUp.radioLinkInit channel).Loaded := fun p hp => by cases hp
  exact ⟨h.toInRange, h.rx, h.fits hl, hl, rfl⟩

/-! ### Events do not hand packets to the main loop -/

@[simp] theorem takeInitiative_history (n : Node) : n.takeInitiative.history = n.history := by
  unfold takeInitiative
  split_ifs <;> rfl

@[simp] theorem respond_history (n : Node) (k : Kind) : (n.respond k).history = n.history := by
  unfold respond
  split_ifs <;> rfl

@[simp] theorem heedAck_history (n : Node) (header : UInt8) :
    (n.heedAck header).history = n.history := by
  unfold heedAck handleAck
  split_ifs <;> rfl

@[simp] theorem handleBadCrc_history (n : Node) (random : UInt8) :
    (n.handleBadCrc random).history = n.history := by
  unfold handleBadCrc
  split_ifs <;> rfl

theorem received_congr {m : Node} (h : m.history = n.history) : m.received = n.received := by
  unfold received
  rw [h]

theorem offerPacket_received (n : Node) : n.offerPacket.1.received = n.received := by
  unfold offerPacket
  split_ifs
  · exact (received_record _).trans (List.append_nil _)
  · rfl
  · rfl

theorem handleReset_received (n : Node) : n.handleReset.received = n.received :=
  (received_record _).trans (List.append_nil _)

theorem handleGoodCrc_received (n : Node) : n.handleGoodCrc.received = n.received := by
  have hack := received_congr (n.heedAck_history (n.currentRxPacket 1))
  unfold handleGoodCrc handleData
  split_ifs
  · exact n.handleReset_received
  · rw [received_congr (respond_history _ _), offerPacket_received, hack]
  · rw [received_congr (takeInitiative_history _), hack]

theorem radioMacEvent_received (n : Node) (r : Readings) (e : MacEvent) :
    (n.radioMacEvent r e).received = n.received := by
  change (radioMacEventHandler r e n.beforeHandler).received = _
  cases e with
  | tx => rfl
  | rx =>
      simp only [radioMacEventHandler]
      split_ifs
      · exact handleGoodCrc_received _
      · exact received_congr (handleBadCrc_history _ _)
  | rxTimeout => exact received_congr (takeInitiative_history _)
  | strobe => exact received_congr (takeInitiative_history _)

theorem Sound.radioMacEvent (h : n.Sound) (r : Readings) (e : MacEvent) :
    (n.radioMacEvent r e).Sound := by
  have hc := consistent_radioMacEvent h.toInRange r e
  have hown : ∀ p : Party Packet, p.queue = n.view.queue → p.inbox = n.view.inbox →
      p.accepted = n.view.accepted → (n.radioMacEvent r e).view = p →
      (n.radioMacEvent r e).Sound := by
    intro p hq hi ha hp
    have hl : (n.radioMacEvent r e).Loaded := by
      intro x hx
      rw [hp, hq] at hx
      exact h.loaded x hx
    refine ⟨hc.toInRange, hc.rx, hc.fits hl, hl, ?_⟩
    rw [radioMacEvent_received, hp, hi, ← h.fifo]
    exact (congrArg Party.accepted hp).trans ha
  have hinitiate := hown n.view.initiate n.view.initiate_sender.queue n.view.initiate_inbox
    n.view.initiate_receiver.accepted
  cases e with
  | tx => exact hown n.view.listen rfl rfl rfl (view_radioMacEvent_tx r)
  | rxTimeout => exact hinitiate (view_radioMacEvent_rxTimeout h.toInRange h.loaded r)
  | strobe => exact hinitiate (view_radioMacEvent_strobe h.toInRange h.loaded r)
  | rx =>
      by_cases hr : r.crcPassed = true
      · have hview := view_radioMacEvent_goodCrc h.toInRange h.loaded hr
        obtain ⟨got, hin, hacc⟩ := n.view.listen.receive_inbox 2 (frameOf n.currentRxPacket)
        have hl : (n.radioMacEvent r .rx).Loaded := by
          intro x hx
          rw [hview] at hx
          exact h.loaded x (n.view.listen.mem_queue_of_receive hx)
        refine ⟨hc.toInRange, hc.rx, hc.fits hl, hl, ?_⟩
        have hacc' : (n.radioMacEvent r .rx).accepted = n.accepted ++ got :=
          (congrArg Party.accepted hview).trans hacc
        have hin' : (n.radioMacEvent r .rx).view.inbox = n.view.inbox ++ got :=
          (congrArg Party.inbox hview).trans hin
        rw [hacc', hin', radioMacEvent_received, h.fifo, List.append_assoc]
      · exact hown n.view.listen rfl rfl rfl (view_radioMacEvent_badCrc (by simpa using hr))

theorem Sound.storeTx (h : n.Sound) (offset : ℕ) (b : UInt8) :
    (n.storeTx n.radioLinkTxMainLoopIndex offset b).Sound := by
  have hview := view_storeTx h.toInRange offset b
  refine ⟨h.toInRange.storeTx _ _ _, h.rx, h.fits, ?_, ?_⟩
  · unfold Loaded
    rw [hview]
    exact h.loaded
  · rw [hview]
    exact h.fifo

theorem Sound.dmaReceive (h : n.Sound) (bytes : List UInt8) : (n.dmaReceive bytes).Sound := by
  have hview := view_dmaReceive h.toInRange h.rx bytes
  rcases h.rx.dmaReceive_eq bytes with he | ⟨-, he⟩
  · rw [he]
    exact h
  · have hl : (n.dmaReceive bytes).Loaded := by
      unfold Loaded
      rw [hview]
      exact h.loaded
    have hfifo : (n.dmaReceive bytes).accepted =
        (n.dmaReceive bytes).received ++ (n.dmaReceive bytes).view.inbox := by
      rw [hview, he]
      exact h.fifo
    rw [he] at hl hfifo ⊢
    exact ⟨⟨h.rxMain, h.rxInterrupt, h.txMain, h.txInterrupt, h.pktlen⟩, h.rx, h.fits, hl, hfifo⟩

theorem Sound.sendPacket (h : n.Sound) (hfree : n.radioLinkTxCurrentPacket ≠ none) {t : UInt8}
    (ht : (n.populated t).Valid) : (n.writeTxHeader t).advanceTxMainLoopIndex.Sound := by
  have hview := view_sendPacket h.toInRange hfree ht
  refine ⟨⟨h.rxMain, h.rxInterrupt, Ring.next_lt h.txMain, h.txInterrupt, h.pktlen⟩, h.rx, h.fits,
    ?_, ?_⟩
  · intro p hp
    rw [hview] at hp
    rcases List.mem_append.mp hp with hp | hp
    · exact h.loaded p hp
    · obtain rfl := List.mem_singleton.mp hp
      exact ⟨ht.1, ht.2.1⟩
  · rw [hview]
    refine Eq.trans ?_ (h.fifo.trans ?_)
    · exact (accepted_record _).trans (List.append_nil _)
    · congr 1
      exact ((received_record _).trans (List.append_nil _)).symm

theorem Sound.radioLinkRxDoneWithPacket (h : n.Sound) (howned : n.radioLinkRxCurrentPacket ≠ none) :
    n.radioLinkRxDoneWithPacket.Sound := by
  have hne := radioLinkRxCurrentPacket_ne_none.mp howned
  have hinbox : n.view.inbox = _ :: _ := Ring.contents_cons
    (fun i => rxPacketOf (n.radioLinkRxPacket i)) h.rxMain h.rxInterrupt hne
  refine ⟨⟨Ring.next_lt h.rxMain, h.rxInterrupt, h.txMain, h.txInterrupt, h.pktlen⟩, h.rx, h.fits,
    h.loaded, ?_⟩
  have hacc : n.radioLinkRxDoneWithPacket.accepted = n.accepted :=
    (accepted_record _).trans (List.append_nil _)
  have hrec : n.radioLinkRxDoneWithPacket.received = n.received ++ [_] := received_record _
  rw [hacc, hrec, h.fifo, hinbox, List.append_assoc, List.singleton_append]
  rfl

theorem Sound.radioLinkTxQueueReset (h : n.Sound) : n.radioLinkTxQueueReset.Sound := by
  refine ⟨⟨h.rxMain, h.rxInterrupt, h.txMain, h.txMain, h.pktlen⟩, h.rx, h.fits, ?_, h.fifo⟩
  intro p hp
  rw [view_radioLinkTxQueueReset] at hp
  cases hp

theorem Sound.of_same (h : n.Sound) {m : Mac Buffer} (hst : m.radioMacState = n.mac.radioMacState)
    (hdma : m.dma = n.mac.dma) (hlen : m.pktlen = n.mac.pktlen) :
    Sound { n with mac := m } := by
  have htx : Node.transmitting { n with mac := m } = n.transmitting := by
    unfold transmitting
    rw [hst]
  refine ⟨⟨h.rxMain, h.rxInterrupt, h.txMain, h.txInterrupt, hlen.trans h.pktlen⟩, ?_, ?_,
    h.loaded, h.fifo⟩
  · intro hrx
    exact hdma.trans (h.rx (hst.symm.trans hrx))
  · unfold Fits
    rw [htx]
    exact h.fits

end Node

namespace Station

/-- The frames with a good CRC, which only the peer can send. -/
def Hears : Action → Prop
  | .event .rx r => r.crcPassed = true
  | _ => False

instance (a : Action) : Decidable (Hears a) := by
  unfold Hears
  split <;> infer_instance

/-- The documented use of the link, with valid packets. The channel never changes. -/
def Proper (s : Station) : Action → Prop
  | .sendPacket t => s.node.radioLinkTxCurrentPacket ≠ none ∧ (s.node.populated t).Valid
  | .txQueueReset => True
  | a => s.Documented a

instance (s : Station) (a : Action) : Decidable (Proper s a) := by
  rcases a with ⟨⟩ <;> dsimp only [Proper] <;> infer_instance

def own (s : Station) : Action → Option (Own Packet)
  | .sendPacket t => some (.enqueue (s.node.populated t))
  | .rxDone => some .release
  | .txQueueReset => some .discard
  | .event .tx _ => some .listen
  | .event .rx _ => some .listen
  | .event .strobe _ => some .initiate
  | .event .rxTimeout _ => some .initiate
  | _ => none

variable {s t : Station} {a : Action}

theorem view_step (h : s.node.Sound) (ha : s.Proper a) (hf : ¬ Hears a)
    (hs : s.step a = some t) : t.node.view = (s.own a).elim s.node.view s.node.view.own := by
  rw [step_node hs]
  cases a with
  | storeTx offset b => exact Node.view_storeTx h.toInRange _ _
  | sendPacket ty => exact Node.view_sendPacket h.toInRange ha.1 ha.2
  | strobe => rfl
  | rxDone => exact Node.view_radioLinkRxDoneWithPacket h.toInRange ha
  | txQueueReset => exact Node.view_radioLinkTxQueueReset
  | changeChannel channel => exact ha.elim
  | dma bytes => exact Node.view_dmaReceive h.toInRange h.rx bytes
  | event e r =>
      cases e with
      | tx => exact Node.view_radioMacEvent_tx r
      | rx => exact Node.view_radioMacEvent_badCrc (by simpa [Hears] using hf)
      | rxTimeout => exact Node.view_radioMacEvent_rxTimeout h.toInRange h.loaded r
      | strobe => exact Node.view_radioMacEvent_strobe h.toInRange h.loaded r
  | rfErrors f => rfl

theorem sound_step (h : s.node.Sound) (ha : s.Proper a) (hs : s.step a = some t) :
    t.node.Sound := by
  rw [step_node hs]
  cases a with
  | storeTx offset b => exact h.storeTx _ _
  | sendPacket ty => exact h.sendPacket ha.1 ha.2
  | strobe => exact h.of_same rfl rfl rfl
  | rxDone => exact h.radioLinkRxDoneWithPacket ha
  | txQueueReset => exact h.radioLinkTxQueueReset
  | changeChannel channel => exact ha.elim
  | dma bytes => exact h.dmaReceive bytes
  | event e r => exact h.radioMacEvent r e
  | rfErrors f => exact h.of_same rfl rfl rfl

def report (s : Station) (e : MacEvent) (r : Readings) : Station :=
  ⟨s.node.radioMacEvent r e, s.inSend⟩

def hear (s : Station) (bytes : List UInt8) (r : Readings) : Station :=
  ⟨(s.node.dmaReceive bytes).radioMacEvent r .rx, s.inSend⟩

/-- A frame that fits is heard as it was sent. -/
theorem view_hear (h : s.node.Sound) (hst : s.node.mac.radioMacState = .rx) {frame : Buf}
    (hmin : 1 ≤ (frame 0).toNat) (hmax : (frame 0).toNat ≤ maxPacketSize) (status : List UInt8)
    {r : Readings} (hr : r.crcPassed = true) :
    (s.hear (frameBytes frame ++ status) r).node.view =
      s.node.view.receive 2 (frameOf frame) := by
  have hd := h.dmaReceive (frameBytes frame ++ status)
  have hair : s.node.view.air = none := by
    change Option.map _ _ = none
    rw [Node.transmitting_of_rx hst]
    rfl
  have hframe : frameOf (s.node.dmaReceive (frameBytes frame ++ status)).currentRxPacket =
      frameOf frame := by
    rw [Node.currentRxPacket_dmaReceive h.rx hst]
    exact frameOf_dmaStore _ _ _ hmin (by omega)
  have hview := Node.view_radioMacEvent_goodCrc hd.toInRange hd.loaded hr
  rw [hframe, Node.view_dmaReceive h.toInRange h.rx, Party.listen_of_air _ hair] at hview
  exact hview

end Station

abbrev Air := Bool → Station

inductive AirAction
  | own (y : Bool) (a : Action)
  | deliver (y : Bool) (status : List UInt8) (r r' : Readings)

namespace Air

/-- The radio of the receiver appends two status bytes to a frame, which are arbitrary here. -/
def step (s : Air) : AirAction → Option Air
  | .own y a => if Station.Hears a then none else ((s y).step a).map (Function.update s y)
  | .deliver y status r r' =>
      match (s y).node.transmitting with
      | none => none
      | some frame =>
          if (s !y).node.mac.radioMacState = .rx ∧ r'.crcPassed = true then
            some (Function.update (Function.update s y ((s y).report .tx r)) (!y)
              ((s !y).hear (frameBytes frame ++ status) r'))
          else none

def Proper (s : Air) : AirAction → Prop
  | .own y a => (s y).Proper a
  | .deliver _ _ _ _ => True

instance (s : Air) (a : AirAction) : Decidable (Proper s a) := by
  rcases a with ⟨⟩ <;> dsimp only [Proper] <;> infer_instance

def Sound (s : Air) : Prop := ∀ y, (s y).node.Sound

def view (s : Air) : Pair Packet := fun y => (s y).node.view

def move (s : Air) : AirAction → Option (Move Packet)
  | .own y a => ((s y).own a).map (Move.own y)
  | .deliver y _ _ _ => some (.deliver y)

variable {s t : Air} {a : AirAction}

theorem step_own {y : Bool} {b : Action} (hs : s.step (.own y b) = some t) :
    ¬ Station.Hears b ∧ ∃ u, (s y).step b = some u ∧ t = Function.update s y u := by
  simp only [step] at hs
  split_ifs at hs with hf
  obtain ⟨u, hu, rfl⟩ := Option.map_eq_some_iff.mp hs
  exact ⟨hf, u, hu, rfl⟩

theorem step_deliver {y : Bool} {status : List UInt8} {r r' : Readings}
    (hs : s.step (.deliver y status r r') = some t) :
    ∃ frame, (s y).node.transmitting = some frame ∧ (s !y).node.mac.radioMacState = .rx ∧
      r'.crcPassed = true ∧ t = Function.update (Function.update s y ((s y).report .tx r)) (!y)
        ((s !y).hear (frameBytes frame ++ status) r') := by
  simp only [step] at hs
  split at hs
  · cases hs
  · rename_i frame hframe
    split_ifs at hs with hc
    exact ⟨frame, hframe, hc.1, hc.2, (Option.some.inj hs).symm⟩

theorem sound_update {y : Bool} {u : Station} (h : s.Sound) (hu : u.node.Sound) :
    Sound (Function.update s y u) := by
  intro z
  by_cases hz : z = y
  · subst hz
    rwa [Function.update_self]
  · rw [Function.update_of_ne hz]
    exact h z

theorem sound_step (h : s.Sound) (ha : s.Proper a) (hs : s.step a = some t) : t.Sound := by
  cases a with
  | own y b =>
      obtain ⟨-, u, hu, rfl⟩ := step_own hs
      exact sound_update h (Station.sound_step (h y) ha hu)
  | deliver y status r r' =>
      obtain ⟨frame, -, -, -, rfl⟩ := step_deliver hs
      exact sound_update (sound_update h ((h y).radioMacEvent r .tx))
        (((h !y).dmaReceive _).radioMacEvent r' .rx)

theorem sound_run {C : Air → AirAction → Prop} (hr : Run step C s t) (h : s.Sound)
    (hproper : ∀ s a, C s a → s.Proper a) : t.Sound :=
  Run.invariant hr h fun s a _ hs ha hst => sound_step hs (hproper s a ha) hst

theorem view_update (s : Air) (y : Bool) (u : Station) :
    view (Function.update s y u) = Function.update s.view y u.node.view := by
  funext z
  by_cases hz : z = y
  · subst hz
    simp [view]
  · simp [view, Function.update_of_ne hz]

/-- Each step of the nodes is a step of the protocol or leaves the views alone. -/
theorem view_step (h : s.Sound) (ha : s.Proper a) (hs : s.step a = some t) :
    (s.move a).elim (t.view = s.view) fun m => StopAndWait.step 2 s.view m = some t.view := by
  cases a with
  | own y b =>
      obtain ⟨hf, u, hu, rfl⟩ := step_own hs
      have hview := Station.view_step (h y) ha hf hu
      rw [view_update, hview]
      simp only [move]
      cases (s y).own b with
      | none => exact Function.update_eq_self _ _
      | some o => rfl
  | deliver y status r r' =>
      obtain ⟨frame, hframe, hst, hcrc, rfl⟩ := step_deliver hs
      obtain ⟨hmin, hmax⟩ := (h y).fits frame hframe
      have hair : (s.view y).air = some (frameOf frame) := congrArg (Option.map frameOf) hframe
      have hpeer : (s.view !y).air = none :=
        congrArg (Option.map frameOf) (Node.transmitting_of_rx hst)
      rw [view_update, view_update, Station.view_hear (h !y) hst hmin hmax status hcrc]
      simp only [move, Option.elim_some, StopAndWait.step, hair, hpeer, Option.isNone_none, if_true]
      rfl

/-- A direction in order stays in order while every step is clean in the protocol. -/
theorem inSync_run {C : Air → AirAction → Prop} {sent₀ accepted₀ : List Packet} {x : Bool}
    (hr : Run step C s t) (h : s.Sound) (hsync : InSync sent₀ accepted₀ x s.view)
    (hproper : ∀ s a, C s a → s.Proper a)
    (hclean : ∀ s a m, C s a → s.move a = some m → Clean 2 accepted₀ x s.view m) :
    t.Sound ∧ InSync sent₀ accepted₀ x t.view := by
  refine Run.invariant (I := fun s => s.Sound ∧ InSync sent₀ accepted₀ x s.view) hr ⟨h, hsync⟩ ?_
  intro s a t ⟨hs, hi⟩ ha hst
  have hview := view_step hs (hproper s a ha) hst
  refine ⟨sound_step hs (hproper s a ha) hst, ?_⟩
  cases hm : s.move a with
  | none =>
      rw [hm] at hview
      rw [show t.view = s.view from hview]
      exact hi
  | some m =>
      rw [hm] at hview
      exact hi.step (hclean s a m ha hm) hview

/-- Reliable ordered delivery from `x` to its peer between two states: the packets accepted in
between are a prefix of the packets queued in between, and the packets that have left the queue are
a prefix of those accepted. The main loop has received what was accepted, in order, up to what is
still in the ring. -/
def Delivered (s t : Air) (x : Bool) : Prop :=
  ∃ queued accepted removed, (t x).node.sent = (s x).node.sent ++ queued ∧
    (t !x).node.accepted = (s !x).node.accepted ++ accepted ∧
    accepted <+: queued ∧ queued = removed ++ (t x).node.view.queue ∧ removed <+: accepted ∧
    (t !x).node.accepted = (t !x).node.received ++ (t !x).node.view.inbox

theorem delivered_of_inSync {x : Bool} (h : t.Sound)
    (hsync : InSync (s x).node.sent (s !x).node.accepted x t.view) : Delivered s t x := by
  obtain ⟨queued, accepted, removed, hq, ha, hp, hr, hra⟩ := hsync.delivered
  exact ⟨queued, accepted, removed, hq, ha, hp, hr, hra, (h !x).fifo⟩

end Air
end WixelSdk.RadioLink
