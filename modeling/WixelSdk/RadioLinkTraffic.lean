import WixelSdk.RadioLinkAir
import WixelSdk.RadioLinkInterrupt

/-!
# Two main loops and the traffic between their radios

`Follows` is what a main loop does to its link between the interrupts, and `Traffic` lists the
interrupts that the two nodes still have ahead of them, each with the link as it will find it. A step
takes the next interrupt of one node, or the end of a transmission of one node together with the
reception of that frame by the other. Nobody else transmits: a frame with a good CRC is only received
in this way.
-/

namespace WixelSdk.RadioLink
open RadioMac StopAndWait Transition

namespace Node

variable {n m last : Node} {i : Irq} {ps qs : List (Node × Irq)}

/-! ### One node -/

/-- The accesses of a main loop that keeps to the documented use of the link. -/
inductive Access (n : Node) : Node → Prop
  | storeTx (offset : ℕ) (b : UInt8) : Access n (n.storeTx n.radioLinkTxMainLoopIndex offset b)
  | advance (hfree : n.radioLinkTxCurrentPacket ≠ none)
      (hvalid : (txPacketOf (n.radioLinkTxPacket n.radioLinkTxMainLoopIndex)).Valid) :
      Access n n.advanceTxMainLoopIndex
  | strobe : Access n n.radioMacStrobe
  | rxDone (howned : n.radioLinkRxCurrentPacket ≠ none) : Access n n.radioLinkRxDoneWithPacket
  | clear : Access n { n with radioLinkResetPacketReceived := false }

/-- The main loop goes from `n` to `last`, and the interrupts find the link as the list says. -/
def Follows : Node → List (Node × Irq) → Node → Prop
  | n, [], last => Relation.ReflTransGen Access n last
  | n, (m, i) :: ps, last => Relation.ReflTransGen Access n m ∧ (m.interrupt i).Follows ps last

theorem Follows.prepend (h : Relation.ReflTransGen Access n m) (h' : m.Follows ps last) :
    n.Follows ps last := by
  cases ps with
  | nil => exact h.trans h'
  | cons p ps => exact ⟨h.trans h'.1, h'.2⟩

theorem Follows.trans (h : n.Follows ps m) (h' : m.Follows qs last) : n.Follows (ps ++ qs) last := by
  induction ps generalizing n with
  | nil => exact h'.prepend h
  | cons p ps ih => exact ⟨h.1, ih h.2⟩

theorem follows_visits (n : Node) (is : List Irq) :
    n.Follows (n.visits is) (is.foldl Node.interrupt n) := by
  induction is generalizing n with
  | nil => exact .refl
  | cons i is ih => exact ⟨.refl, ih (n.interrupt i)⟩

/-- From `n` to `m` the node does something by itself, or nothing that the protocol can see. -/
structure Alone (n m : Node) : Prop where
  sound : m.Sound
  view : m.view = n.view ∨ ∃ o, o ≠ .discard ∧ m.view = n.view.own o

theorem Sound.advanceTxMainLoopIndex (h : n.Sound) (hfree : n.radioLinkTxCurrentPacket ≠ none)
    (hvalid : (txPacketOf (n.radioLinkTxPacket n.radioLinkTxMainLoopIndex)).Valid) :
    n.advanceTxMainLoopIndex.Sound := by
  have hview := view_advanceTxMainLoopIndex h.toInRange hfree
  refine ⟨⟨h.rxMain, h.rxInterrupt, Ring.next_lt h.txMain, h.txInterrupt, h.pktlen⟩, h.rx, h.fits,
    ?_, ?_⟩
  · intro p hp
    rw [hview] at hp
    rcases List.mem_append.mp hp with hp | hp
    · exact h.loaded p hp
    · obtain rfl := List.mem_singleton.mp hp
      exact ⟨hvalid.1, hvalid.2.1⟩
  · have hacc : n.advanceTxMainLoopIndex.accepted = n.accepted :=
      (accepted_record _).trans (List.append_nil _)
    have hrec : n.advanceTxMainLoopIndex.received = n.received :=
      (received_record _).trans (List.append_nil _)
    rw [hacc, hrec, hview]
    exact h.fifo

theorem Access.alone (ha : Access n m) (h : n.Sound) : Alone n m := by
  cases ha with
  | storeTx offset b => exact ⟨h.storeTx _ _, Or.inl (view_storeTx h.toInRange _ _)⟩
  | advance hfree hvalid =>
      exact ⟨h.advanceTxMainLoopIndex hfree hvalid,
        Or.inr ⟨.enqueue _, nofun, view_advanceTxMainLoopIndex h.toInRange hfree⟩⟩
  | strobe => exact ⟨h.of_same rfl rfl rfl, Or.inl rfl⟩
  | rxDone howned =>
      exact ⟨h.radioLinkRxDoneWithPacket howned,
        Or.inr ⟨.release, nofun, view_radioLinkRxDoneWithPacket h.toInRange howned⟩⟩
  | clear =>
      exact ⟨⟨⟨h.rxMain, h.rxInterrupt, h.txMain, h.txInterrupt, h.pktlen⟩, h.rx, h.fits, h.loaded,
        h.fifo⟩, Or.inl rfl⟩

/-- The interrupt receives a frame with a good CRC. -/
def Hears (n : Node) : Irq → Prop
  | .event .rx r => n.mac.radioMacState = .rx ∧ r.crcPassed = true
  | _ => False

instance (n : Node) (i : Irq) : Decidable (n.Hears i) := by
  unfold Hears
  split <;> infer_instance

theorem Sound.interrupt (h : n.Sound) (i : Irq) : (n.interrupt i).Sound := by
  cases i with
  | dma bytes =>
      simp only [Node.interrupt]
      split_ifs
      · exact h.dmaReceive bytes
      · exact h
  | event e r =>
      simp only [Node.interrupt]
      split_ifs
      · exact h.radioMacEvent r e
      · exact h
  | errors f => exact h.of_same rfl rfl rfl

theorem alone_interrupt (h : n.Sound) (hi : ¬ n.Hears i) : Alone n (n.interrupt i) := by
  refine ⟨h.interrupt i, ?_⟩
  cases i with
  | dma bytes =>
      simp only [Node.interrupt]
      split_ifs
      · exact Or.inl (view_dmaReceive h.toInRange h.rx bytes)
      · exact Or.inl rfl
  | errors f => exact Or.inl rfl
  | event e r =>
      simp only [Node.interrupt]
      split_ifs with hrep
      · cases e with
        | tx => exact Or.inr ⟨.listen, by rintro ⟨⟩, view_radioMacEvent_tx r⟩
        | rx =>
            have hcrc : r.crcPassed = false := Bool.eq_false_iff.mpr fun hc => hi ⟨hrep, hc⟩
            exact Or.inr ⟨.listen, by rintro ⟨⟩, view_radioMacEvent_badCrc hcrc⟩
        | rxTimeout =>
            exact Or.inr
              ⟨.initiate, by rintro ⟨⟩, view_radioMacEvent_rxTimeout h.toInRange h.loaded r⟩
        | strobe =>
            exact Or.inr
              ⟨.initiate, by rintro ⟨⟩, view_radioMacEvent_strobe h.toInRange h.loaded r⟩
      · exact Or.inl rfl

/-- The interrupt `i` ends a transmission of `n`. -/
def Ends (n : Node) : Irq → Prop
  | .event .tx _ => n.mac.radioMacState = .tx
  | _ => False

instance (n : Node) (i : Irq) : Decidable (n.Ends i) := by
  unfold Ends
  split <;> infer_instance

theorem Ends.spec (h : n.Ends i) :
    n.view.air = some (frameOf n.frame) ∧ (n.interrupt i).view = n.view.listen := by
  unfold Ends at h
  split at h
  · rename_i r
    refine ⟨?_, ?_⟩
    · change Option.map frameOf n.transmitting = _
      rw [transmitting, if_pos h]
      rfl
    · have hrep : n.mac.Reports .tx := h
      rw [Node.interrupt, if_pos hrep]
      exact view_radioMacEvent_tx r
  · exact h.elim

theorem Hears.spec (h : n.Hears i) (hs : n.Sound) :
    n.view.air = none ∧ (n.interrupt i).view = n.view.receive 2 (frameOf n.currentRxPacket) := by
  unfold Hears at h
  split at h
  · rename_i r
    have hair : n.view.air = none := by
      change Option.map frameOf n.transmitting = none
      rw [transmitting_of_rx h.1]
      rfl
    have hrep : n.mac.Reports .rx := h.1
    refine ⟨hair, ?_⟩
    rw [Node.interrupt, if_pos hrep, view_radioMacEvent_goodCrc hs.toInRange hs.loaded h.2,
      Party.listen_of_air _ hair]
  · exact h.elim

end Node

/-! ### The traffic -/

/-- The interrupts that each node still has ahead of it. -/
abbrev Traffic := Bool → List (Node × Irq)

/-- What happens next: an interrupt of `y`, or the end of a transmission of `y` which the other node
receives. -/
inductive Turn
  | alone (y : Bool)
  | deliver (y : Bool)

/-- A transmission of `n` ends with the interrupt `i`, and with the interrupt `j` the node `m` finds
that frame in its buffer. -/
def Carried (n : Node) (i : Irq) (m : Node) (j : Irq) : Prop :=
  n.Ends i ∧ m.Hears j ∧ frameBytes n.frame = frameBytes m.currentRxPacket

instance (n : Node) (i : Irq) (m : Node) (j : Irq) : Decidable (Carried n i m j) :=
  inferInstanceAs (Decidable (_ ∧ _ ∧ _))

theorem Carried.frame_eq {n m : Node} {i j : Irq} (hc : Carried n i m j) (h : n.Sound) :
    frameOf n.frame = frameOf m.currentRxPacket := by
  obtain ⟨buf, hbuf, -⟩ := Option.map_eq_some_iff.mp hc.1.spec.1
  have hframe : n.transmitting = some n.frame := by
    unfold Node.transmitting at hbuf ⊢
    split_ifs at hbuf ⊢
    rfl
  exact frameOf_of_frameBytes hc.2.2 (h.fits _ hframe).1

namespace Traffic

def step (s : Traffic) : Turn → Option Traffic
  | .alone y =>
      match s y with
      | (n, i) :: ps => if n.Hears i then none else some (Function.update s y ps)
      | [] => none
  | .deliver y =>
      match s y, s !y with
      | (n, i) :: ps, (m, j) :: qs =>
          if Carried n i m j then some (Function.update (Function.update s y ps) (!y) qs) else none
      | _, _ => none

/-- The two deliveries that go wrong, as in `Air.Unmistaken`, between nodes of which the sender has
just started. -/
def Unmistaken (x : Bool) (s : Traffic) : Turn → Prop
  | .alone _ => True
  | .deliver y =>
      match s y, s !y with
      | (n, _) :: _, (m, _) :: _ =>
          if y = x then kindOf (n.frame 1) = .reset → m.accepted = []
          else kindOf (n.frame 1) = .ack → m.sendingReset = true →
            n.accepted ≠ [] ∨ n.acceptAnySequenceBit = true ∨ n.rxSequenceBit = true
      | _, _ => True

instance (x : Bool) (s : Traffic) (a : Turn) : Decidable (Unmistaken x s a) := by
  cases a with
  | alone y => exact .isTrue trivial
  | deliver y =>
      simp only [Unmistaken]
      split <;> infer_instance

variable {s t : Traffic} {x y : Bool}

theorem step_alone (hs : s.step (.alone y) = some t) :
    ∃ n i ps, s y = (n, i) :: ps ∧ ¬ n.Hears i ∧ t = Function.update s y ps := by
  simp only [step] at hs
  split at hs
  · rename_i n i ps hy
    split_ifs at hs with hi
    exact ⟨n, i, ps, hy, hi, (Option.some.inj hs).symm⟩
  · cases hs

theorem step_deliver (hs : s.step (.deliver y) = some t) :
    ∃ n i ps m j qs, s y = (n, i) :: ps ∧ (s !y) = (m, j) :: qs ∧ Carried n i m j ∧
      t = Function.update (Function.update s y ps) (!y) qs := by
  simp only [step] at hs
  split at hs
  · rename_i n i ps m j qs hy hpeer
    split_ifs at hs with hc
    exact ⟨n, i, ps, m, j, qs, hy, hpeer, hc, (Option.some.inj hs).symm⟩
  · cases hs

end Traffic

/-! ### The two nodes -/

/-- The direction from `x` is in order since both nodes started. -/
structure Joined (x : Bool) (nodes : Bool → Node) : Prop where
  sound : ∀ y, (nodes y).Sound
  onAir : (nodes x).view.OnAir
  inSync : InSync [] [] x (Node.view ∘ nodes)

namespace Joined

variable {x y : Bool} {nodes : Bool → Node} {n m : Node}

theorem sound_update (h : ∀ y, (nodes y).Sound) (hn : n.Sound) (y : Bool) :
    ∀ z, (Function.update nodes y n z).Sound := by
  intro z
  by_cases hz : z = y
  · subst hz
    rwa [Function.update_self]
  · rw [Function.update_of_ne hz]
    exact h z

/-- What is a clean move of the protocol keeps the direction in order. -/
theorem move {nodes' : Bool → Node} (h : Joined x nodes) (hsound : ∀ y, (nodes' y).Sound)
    {a : Move Packet} (hm : a ≠ .own x .discard) (hclean : Clean 2 [] x (Node.view ∘ nodes) a)
    (hs : StopAndWait.step 2 (Node.view ∘ nodes) a = some (Node.view ∘ nodes')) :
    Joined x nodes' :=
  ⟨hsound, onAir_step (s := Node.view ∘ nodes) (t := Node.view ∘ nodes') h.onAir hm hs,
    h.inSync.step hclean hs⟩

theorem alone (h : Joined x nodes) (hn : Node.Alone (nodes y) n) :
    Joined x (Function.update nodes y n) := by
  have hsound := sound_update h.sound hn.sound y
  have hviews : Node.view ∘ Function.update nodes y n =
      Function.update (Node.view ∘ nodes) y n.view := Function.comp_update _ _ _ _
  rcases hn.view with hsame | ⟨o, ho, hown⟩
  · have hviews' : Node.view ∘ Function.update nodes y n = Node.view ∘ nodes := by
      rw [hviews, hsame]
      exact Function.update_eq_self y (Node.view ∘ nodes)
    refine ⟨hsound, ?_, ?_⟩
    · have hx : (Function.update nodes y n x).view = (nodes x).view := congrFun hviews' x
      rw [hx]
      exact h.onAir
    · rw [hviews']
      exact h.inSync
  · refine h.move hsound (a := .own y o) (fun he => ho (Move.own.inj he).2) ?_ ?_
    · cases o with
      | discard => exact absurd rfl ho
      | _ => trivial
    · rw [hviews, hown]
      rfl

theorem accesses (h : Joined x nodes) (hn : Relation.ReflTransGen Node.Access (nodes y) n) :
    Joined x (Function.update nodes y n) := by
  induction hn with
  | refl => rwa [Function.update_eq_self]
  | @tail m n _ ha ih =>
      have halone := ha.alone (by simpa using ih.sound y)
      rw [← Function.update_self y m nodes] at halone
      simpa only [Function.update_idem] using ih.alone halone

/-- The delivery of a frame, unless it is one of the two that go wrong. -/
theorem deliver {i j : Irq} (h : Joined x nodes) (hc : Carried (nodes y) i (nodes !y) j)
    (hreset : y = x → kindOf ((nodes y).frame 1) = .reset → (nodes !y).accepted = [])
    (hack : y ≠ x → kindOf ((nodes y).frame 1) = .ack → (nodes !y).sendingReset = true →
      (nodes y).accepted ≠ [] ∨ (nodes y).acceptAnySequenceBit = true ∨
        (nodes y).rxSequenceBit = true) :
    Joined x (Function.update (Function.update nodes y ((nodes y).interrupt i)) (!y)
      ((nodes !y).interrupt j)) := by
  obtain ⟨hair, hlisten⟩ := hc.1.spec
  obtain ⟨hpeer, hreceive⟩ := hc.2.1.spec (h.sound !y)
  have hframe := hc.frame_eq (h.sound y)
  have hsound := sound_update (sound_update h.sound ((h.sound y).interrupt i) y)
    ((h.sound !y).interrupt j) (!y)
  refine h.move hsound (a := .deliver y) nofun ?_ ?_
  · simp only [Clean]
    split_ifs with hy
    · subst hy
      intro f hf
      obtain rfl := Option.some.inj (hair.symm.trans hf)
      exact ⟨hreset rfl, fun b p hb => Or.inl (h.onAir.body _ b p hair hb)⟩
    · obtain rfl : x = !y := by cases x <;> cases y <;> simp_all
      simp only [Bool.not_not]
      rintro ⟨f, hf, hk⟩ hres
      obtain rfl := Option.some.inj (hair.symm.trans hf)
      rcases hack hy hk hres with hacc | hany | hbit
      · exact Or.inl hacc
      · exact Or.inr (Or.inl hany)
      · refine Or.inr (Or.inr fun hfalse => ?_)
        have hbit' : ((Node.view ∘ nodes) y).rxBit = true := hbit
        rw [hfalse] at hbit'
        cases hbit'
  · have hairs : ((Node.view ∘ nodes) y).air = some (frameOf (nodes y).frame) := hair
    have hpeers : ((Node.view ∘ nodes) (!y)).air = none := hpeer
    rw [Function.comp_update, Function.comp_update, hlisten, hreceive, ← hframe]
    simp only [StopAndWait.step, hairs, hpeers, Option.isNone_none, if_true]
    rfl

theorem start (x : Bool) (channel : Bool → UInt8) :
    Joined x fun y => Node.powerUp.radioLinkInit (channel y) where
  sound y := Node.sound_radioLinkInit (channel y)
  onAir := Party.onAir_of_air _ rfl
  inSync := inSync_of_idle (s := Node.view ∘ fun y => Node.powerUp.radioLinkInit (channel y)) rfl
    rfl (fun _ => rfl) nofun

end Joined

/-! ### Runs -/

namespace Traffic

variable {s t : Traffic} {x : Bool} {last : Bool → Node} {a : Turn}

/-- The nodes at some moment, and what their main loops and interrupts still do from there. -/
def Ahead (x : Bool) (last : Bool → Node) (s : Traffic) : Prop :=
  ∃ nodes, Joined x nodes ∧ ∀ y, (nodes y).Follows (s y) (last y)

theorem Ahead.step (h : Ahead x last s) (ha : Unmistaken x s a) (hs : s.step a = some t) :
    Ahead x last t := by
  obtain ⟨nodes, hjoined, hfollows⟩ := h
  cases a with
  | alone y =>
      obtain ⟨n, i, ps, hy, hi, rfl⟩ := step_alone hs
      have hnext := hfollows y
      rw [hy] at hnext
      have hreach := hjoined.accesses hnext.1
      have halone := Node.alone_interrupt (by simpa using hreach.sound y) hi
      rw [← Function.update_self y n nodes] at halone
      refine ⟨_, hreach.alone halone, fun z => ?_⟩
      by_cases hz : z = y
      · subst hz
        simpa only [Function.update_self] using hnext.2
      · simpa only [Function.update_of_ne hz] using hfollows z
  | deliver y =>
      obtain ⟨n, i, ps, m, j, qs, hy, hpeer, hc, rfl⟩ := step_deliver hs
      have hnext := hfollows y
      have hnext' := hfollows !y
      rw [hy] at hnext
      rw [hpeer] at hnext'
      simp only [Unmistaken, hy, hpeer] at ha
      have hreach := (hjoined.accesses hnext.1).accesses (y := !y) (n := m)
        (by simpa using hnext'.1)
      have hn : Function.update (Function.update nodes y n) (!y) m y = n := by simp
      have hm : Function.update (Function.update nodes y n) (!y) m (!y) = m := Function.update_self ..
      have hdeliver := hreach.deliver (y := y) (i := i) (j := j)
      rw [hn, hm] at hdeliver
      refine ⟨_, hdeliver hc (fun he => ?_) (fun he => ?_), fun z => ?_⟩
      · rwa [if_pos he] at ha
      · rwa [if_neg he] at ha
      · by_cases hz : z = !y
        · subst hz
          simpa only [Function.update_self] using hnext'.2
        · obtain rfl : z = y := by cases z <;> cases y <;> simp_all
          simpa only [Function.update_of_ne hz, Function.update_self] using hnext.2

/-- Between two main loops that keep to the documented use of the link, the packets queued at `x` are
accepted by the other node in order, each once, up to those that are still in the queue. -/
theorem delivers {channel : Bool → UInt8}
    (hw : ∀ y, (Node.powerUp.radioLinkInit (channel y)).Follows (s y) (last y))
    (hr : Run step (Unmistaken x) s fun _ => []) :
    ∃ rest, (last x).sent = (last !x).accepted ++ rest ∧ rest <:+ (last x).view.queue := by
  have hstart : Ahead x last s := ⟨_, .start x channel, hw⟩
  obtain ⟨nodes, hjoined, hfollows⟩ := hr.invariant hstart fun _ _ _ h ha hs => h.step ha hs
  have hlast : Joined x last := by
    have hpeer : Relation.ReflTransGen Node.Access (nodes !x) (last !x) := hfollows !x
    have hreach := (hjoined.accesses (hfollows x)).accesses (y := !x) (n := last !x)
      (by simpa using hpeer)
    have heq : Function.update (Function.update nodes x (last x)) (!x) (last !x) = last := by
      funext z
      by_cases hz : z = !x
      · subst hz
        exact Function.update_self ..
      · obtain rfl : z = x := by cases z <;> cases x <;> simp_all
        rw [Function.update_of_ne hz, Function.update_self]
    rwa [heq] at hreach
  obtain ⟨queued, accepted, removed, hq, ha, ⟨rest, rfl⟩, hqueue, ⟨kept, rfl⟩⟩ :=
    hlast.inSync.delivered
  refine ⟨rest, ?_, kept, ?_⟩
  · exact hq.trans (congrArg (· ++ rest) ha.symm)
  · rw [List.append_assoc] at hqueue
    exact List.append_cancel_left hqueue

end Traffic

end WixelSdk.RadioLink
