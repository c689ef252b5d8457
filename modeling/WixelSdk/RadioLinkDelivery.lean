import WixelSdk.RadioLinkAir

/-!
# Delivery between two connected nodes

`Matched` is the state after both reset handshakes. From there on the link is reliable and ordered
in both directions as long as no queue is emptied. `radioLinkTxQueueReset` may break the direction of
its caller when it comes between the acceptance of a packet and the arrival of its acknowledgement:
the transmit bit is not changed, so that the next packet looks like a repetition.
-/

namespace WixelSdk.RadioLink
open RadioMac StopAndWait Transition

namespace Air

/-- Both nodes are connected, nothing is queued or on the air, and the sequence bits match. -/
structure Matched (s : Air) : Prop where
  sound : s.Sound
  connected : ∀ y, (s y).node.sendingReset = false
  idle : ∀ y, (s y).node.mac.radioMacState ≠ .tx
  empty : ∀ y, (s y).node.radioLinkTxInterruptIndex = (s y).node.radioLinkTxMainLoopIndex
  bits : ∀ y, (s !y).node.acceptAnySequenceBit = true ∨
    (s !y).node.rxSequenceBit ≠ (s y).node.txSequenceBit

def QueueReset (x : Bool) : AirAction → Prop
  | .own y .txQueueReset => y = x
  | _ => False

instance (x : Bool) (a : AirAction) : Decidable (QueueReset x a) := by
  rcases a with ⟨y, a⟩ | ⟨y, status, r, r'⟩
  · rcases a with ⟨⟩ <;> dsimp only [QueueReset] <;> infer_instance
  · dsimp only [QueueReset]
    infer_instance

/-- A connected session: valid packets, and no node empties its queue. -/
def Session (s : Air) (a : AirAction) : Prop := s.Proper a ∧ ∀ x, ¬ QueueReset x a

instance (s : Air) (a : AirAction) : Decidable (Session s a) := inferInstanceAs (Decidable (_ ∧ _))

variable {s s₀ t : Air} {x : Bool} {a : AirAction}

theorem move_ne_discard {m : Move Packet} (ha : ¬ QueueReset x a) (hm : s.move a = some m) :
    m ≠ .own x .discard := by
  rintro rfl
  cases a with
  | deliver y status r r' => cases hm
  | own y b =>
      obtain ⟨o, ho, he⟩ := Option.map_eq_some_iff.mp hm
      obtain ⟨rfl, rfl⟩ := Move.own.inj he
      cases b with
      | txQueueReset => exact ha rfl
      | event e r => cases e <;> cases ho
      | _ => cases ho

theorem view_air (h : (s x).node.mac.radioMacState ≠ .tx) : (s.view x).air = none :=
  congrArg (Option.map frameOf) (Node.transmitting_of_ne_tx h)

theorem Matched.connected_view (h : s.Matched) : Connected s.view := fun y =>
  ⟨h.connected y, (Party.onAir_of_air _ (view_air (h.idle y))).reset⟩

theorem Matched.inSync (h : s.Matched) (x : Bool) :
    InSync (s x).node.sent (s !x).node.accepted x s.view := by
  have hq : (s.view x).queue = [] := (Node.queue_eq_nil (h.sound x).toInRange).mpr (h.empty x)
  apply inSync_of_idle hq (view_air (h.idle x))
  · intro hres
    have hres' : (s x).node.sendingReset = true := hres
    rw [h.connected x] at hres'
    cases hres'
  · intro _
    refine ⟨h.bits x, ?_⟩
    rintro ⟨f, hf, -⟩
    rw [view_air (h.idle !x)] at hf
    cases hf

theorem connected_step (h : Connected s.view) (hs : s.Sound) (ha : s.Proper a)
    (hst : s.step a = some t) : Connected t.view := by
  have hview := view_step hs ha hst
  cases hm : s.move a with
  | none =>
      rw [hm] at hview
      rwa [show t.view = s.view from hview]
  | some m =>
      rw [hm] at hview
      exact h.step hview

theorem onAir_step (h : (s.view x).OnAir) (hs : s.Sound) (ha : s.Proper a)
    (hreset : ¬ QueueReset x a) (hst : s.step a = some t) : (t.view x).OnAir := by
  have hview := view_step hs ha hst
  cases hm : s.move a with
  | none =>
      rw [hm] at hview
      rwa [show t.view = s.view from hview]
  | some m =>
      rw [hm] at hview
      exact StopAndWait.onAir_step h (move_ne_discard hreset hm) hview

/-- Reliable ordered delivery of a connected session. -/
theorem reliable_ordered_delivery (h₀ : s₀.Matched) (hr : Run step Session s₀ t) (x : Bool) :
    Delivered s₀ t x := by
  have hstrong := hr.strengthen
    (I := fun s => s.Sound ∧ Connected s.view ∧ (s.view x).OnAir)
    ⟨h₀.sound, h₀.connected_view, Party.onAir_of_air _ (view_air (h₀.idle x))⟩
    (fun s a t ⟨hs, hc, ho⟩ ha hst => ⟨sound_step hs ha.1 hst, connected_step hc hs ha.1 hst,
      onAir_step ho hs ha.1 (ha.2 x) hst⟩)
  obtain ⟨hsound, hsync⟩ := inSync_run hstrong h₀.sound (h₀.inSync x) (fun _ _ ha => ha.1.1)
    (fun s a m ⟨ha, _, hc, ho⟩ hm => hc.clean ho (move_ne_discard (ha.2 x) hm))
  exact delivered_of_inSync hsound hsync

/-! ### A small session -/

/-- Two nodes whose reset handshakes are over. -/
def linked : Air := fun _ =>
  ⟨{ Node.powerUp.radioLinkInit 0 with sendingReset := false }, false⟩

theorem matched_linked : linked.Matched where
  sound y := by
    have h := Node.sound_radioLinkInit 0
    exact ⟨⟨h.rxMain, h.rxInterrupt, h.txMain, h.txInterrupt, h.pktlen⟩, h.rx, h.fits, h.loaded,
      h.fifo⟩
  connected y := rfl
  idle y := by simp [linked, Node.radioLinkInit, Node.radioMacStrobe, Mac.radioMacStrobe,
    Mac.radioMacInit, Node.powerUp, Mac.powerUp]
  empty y := rfl
  bits y := Or.inl rfl

def sendByte (y : Bool) (b : UInt8) : List AirAction :=
  [.own y (.storeTx 1 1), .own y (.storeTx 2 b), .own y (.sendPacket 0), .own y .strobe,
    .own y (.event .strobe ⟨true, 0⟩)]

def arrive (y : Bool) : AirAction := .deliver y [] ⟨true, 0⟩ ⟨true, 0⟩

theorem reliable_delivery_of_a_byte : ∃ t, Run step Session linked t ∧
    (t true).node.received = [⟨0, [7]⟩] ∧ Delivered linked t false := by
  have hrun : (exec step Session linked
      ([.own true (.event .strobe ⟨true, 0⟩)] ++ sendByte false 7 ++
        [arrive false, arrive true, .own true .rxDone])).map
      (fun t => (t true).node.received) = some [⟨0, [7]⟩] := by decide +kernel
  obtain ⟨t, hr, ht⟩ := exists_run_of_exec hrun
  exact ⟨t, hr, ht, reliable_ordered_delivery matched_linked hr false⟩

/-! ### Emptying the TX queue -/

/-- The peer still waits for the sender's first packet. -/
def Awaited (x : Bool) (s : Air) : Prop := (s !x).node.acceptAnySequenceBit = true ∨
  (s !x).node.rxSequenceBit ≠ (s x).node.txSequenceBit

def FirstPacket (x : Bool) (s : Air) (frame : Buf) : Prop :=
  seqOf (frame 1) = (s x).node.txSequenceBit ∧
    (s x).node.view.queue.head? = some (txPacketOf frame)

/-- The peer would accept the packet of the frame, but it has no free buffer and answers NAK. -/
def Refused (x : Bool) (s : Air) (frame : Buf) : Prop :=
  ((s !x).node.acceptAnySequenceBit = true ∨ (s !x).node.rxSequenceBit ≠ seqOf (frame 1)) ∧
    (s !x).node.rxOwned = 2

/-- The sender's queue is emptied only while the peer has not accepted its first packet, and a packet
that was on the air then is not accepted later. -/
def Timely (x : Bool) (s : Air) : AirAction → Prop
  | .own y .txQueueReset => y = x → Awaited x s
  | .deliver y _ _ _ => y = x → ∀ frame ∈ (s x).node.transmitting, 1 < (frame 0).toNat →
      FirstPacket x s frame ∨ Refused x s frame
  | _ => True

instance (x : Bool) (s : Air) : Decidable (Awaited x s) := inferInstanceAs (Decidable (_ ∨ _))

instance (x : Bool) (s : Air) (frame : Buf) : Decidable (FirstPacket x s frame) :=
  inferInstanceAs (Decidable (_ ∧ _))

instance (x : Bool) (s : Air) (frame : Buf) : Decidable (Refused x s frame) :=
  inferInstanceAs (Decidable ((_ ∨ _) ∧ _))

instance (x : Bool) (s : Air) (a : AirAction) : Decidable (Timely x s a) := by
  rcases a with ⟨y, a⟩ | ⟨y, status, r, r'⟩
  · rcases a with ⟨⟩ <;> dsimp only [Timely] <;> infer_instance
  · dsimp only [Timely]
    infer_instance

theorem take_nak_of_refused {frame : Buf} (h : Refused x s frame) :
    ((s.view !x).take 2 (seqOf (frame 1)) (txPacketOf frame)).2 = .nak := by
  have hfull : ¬ (s.view !x).inbox.length < 2 := by
    change ¬ (Ring.contents _ _ _ _).length < 2
    rw [Ring.length_contents]
    exact Nat.not_lt.mpr (Nat.le_of_eq h.2.symm)
  have hexp : (s.view !x).Expects (seqOf (frame 1)) := h.1
  unfold Party.take
  rw [if_pos hexp, if_neg hfull]

/-- A step of a node is clean if it does not empty the queue of the receiver. -/
theorem clean_own {sent₀ : List Packet} {y : Bool} {b : Action} {m : Move Packet}
    (hreset : ¬ QueueReset x (.own y b)) (hm : s.move (.own y b) = some m) :
    Clean 2 sent₀ x s.view m := by
  obtain ⟨o, ho, rfl⟩ := Option.map_eq_some_iff.mp hm
  cases o with
  | discard => exact fun hy => move_ne_discard hreset hm (by rw [hy])
  | _ => trivial

/-- Between connected nodes a timely step that empties no queue is clean. -/
theorem clean_of_timely {sent₀ : List Packet} {m : Move Packet} (hc : Connected s.view)
    (ha : Timely x s a) (hreset : ¬ QueueReset x a)
    (hm : s.move a = some m) : Clean 2 sent₀ x s.view m := by
  cases a with
  | own y b => exact clean_own hreset hm
  | deliver y status r r' =>
      obtain rfl := Option.some.inj hm
      simp only [Clean]
      split_ifs with hy
      · intro f hf
        obtain ⟨frame, hframe, rfl⟩ := Option.map_eq_some_iff.mp hf
        refine ⟨fun hk => ?_, ?_⟩
        · exact absurd ((hc x).2 _ hf hk) (by simp [(hc x).1])
        · intro b p hb
          unfold frameOf at hb
          simp only at hb
          split_ifs at hb with hlong
          obtain ⟨rfl, rfl⟩ := Prod.mk.inj (Option.some.inj hb)
          rcases ha hy frame hframe hlong with ⟨hbit, hhead⟩ | href
          · exact Or.inl ⟨hbit, hhead⟩
          · exact Or.inr (take_nak_of_refused href)
      · exact fun _ hres => absurd hres (by simp [(hc x).1])

/-- Emptying the queue while its first packet is awaited starts a new period. -/
theorem inSync_queueReset {sent₀ accepted₀ : List Packet} (hs : s.Sound) (hc : Connected s.view)
    (hi : InSync sent₀ accepted₀ x s.view) (ha : Awaited x s)
    (hst : s.step (.own x .txQueueReset) = some t) :
    InSync (t x).node.sent (t !x).node.accepted x t.view := by
  have hview : some t.view = some (Function.update s.view x (s.view x).discard) :=
    (view_step hs (a := .own x .txQueueReset) trivial hst).symm
  obtain hview := Option.some.inj hview
  have hsent : (t x).node.sent = (s.view x).sent := by
    change (t.view x).sent = _
    rw [hview, Function.update_self]
    rfl
  have hacc : (t !x).node.accepted = (s.view !x).accepted := by
    change (t.view !x).accepted = _
    rw [hview, Function.update_of_ne (by simp)]
  rw [hsent, hacc, hview]
  exact hi.discard (hc x).1 ha

theorem inSync_timely {sent₀ accepted₀ : List Packet} (hs : s.Sound) (hc : Connected s.view)
    (hi : InSync sent₀ accepted₀ x s.view) (hp : s.Proper a) (ha : Timely x s a)
    (hst : s.step a = some t) : ∃ sent₁ accepted₁, InSync sent₁ accepted₁ x t.view := by
  by_cases hreset : QueueReset x a
  · obtain rfl : a = .own x .txQueueReset := by
      unfold QueueReset at hreset
      split at hreset
      · rw [hreset]
      · exact hreset.elim
    exact ⟨_, _, inSync_queueReset hs hc hi (ha rfl) hst⟩
  · have hview := view_step hs hp hst
    cases hm : s.move a with
    | none =>
        rw [hm] at hview
        exact ⟨_, _, (show t.view = s.view from hview).symm ▸ hi⟩
    | some m =>
        rw [hm] at hview
        exact ⟨_, _, hi.step (clean_of_timely hc ha hreset hm) hview⟩

/-- In a run whose steps are timely for the sender, what it queues after it has emptied its queue is
delivered in order, and exactly once. -/
theorem queue_reset_discards_only_earlier {s' : Air} (h₀ : s₀.Matched)
    (hr : Run step (fun s a => s.Proper a ∧ Timely x s a) s₀ s) (hawaited : Awaited x s)
    (hst : s.step (.own x .txQueueReset) = some s')
    (hr' : Run step (fun s a => s.Proper a ∧ Timely x s a ∧ ¬ QueueReset x a) s' t) :
    Delivered s' t x := by
  obtain ⟨hs, hc, _, _, hi⟩ := Run.invariant
    (I := fun s => s.Sound ∧ Connected s.view ∧ ∃ sent₁ accepted₁, InSync sent₁ accepted₁ x s.view)
    hr ⟨h₀.sound, h₀.connected_view, _, _, h₀.inSync x⟩
    (fun s a t ⟨hs, hc, _, _, hi⟩ ha hst => ⟨sound_step hs ha.1 hst, connected_step hc hs ha.1 hst,
      inSync_timely hs hc hi ha.1 ha.2 hst⟩)
  have hs' := sound_step hs (a := .own x .txQueueReset) trivial hst
  have hc' := connected_step hc hs (a := .own x .txQueueReset) trivial hst
  have hstrong := hr'.strengthen (I := fun s => s.Sound ∧ Connected s.view) ⟨hs', hc'⟩
    (fun s a t ⟨hs, hc⟩ ha hst => ⟨sound_step hs ha.1 hst, connected_step hc hs ha.1 hst⟩)
  obtain ⟨hsound, hsync⟩ := inSync_run hstrong hs' (inSync_queueReset hs hc hi hawaited hst)
    (fun _ _ ha => ha.1.1) (fun s a m ⟨ha, _, hc⟩ hm => clean_of_timely hc ha.2.1 ha.2.2 hm)
  exact delivered_of_inSync hsound hsync

/-- The first packet is accepted and its acknowledgement is lost; the queue is emptied; the peer takes
the next packet for a repetition and acknowledges it. -/
theorem packet_lost_after_queue_reset :
    ¬ ∀ (s₀ s s' t : Air) (x : Bool), s₀.Matched → Run step Proper s₀ s →
      s.step (.own x .txQueueReset) = some s' →
      Run step (fun s a => s.Proper a ∧ ¬ QueueReset x a) s' t → Delivered s' t x := by
  intro hall
  have hrun : ((exec step Proper linked ([.own true (.event .strobe ⟨true, 0⟩)] ++
      sendByte false 1 ++ [arrive false, .own true (.event .tx ⟨true, 0⟩)])).bind fun s =>
      (s.step (.own false .txQueueReset)).bind fun s' =>
      (exec step (fun s a => s.Proper a ∧ ¬ QueueReset false a) s'
        (sendByte false 2 ++ [arrive false, arrive true])).map fun t =>
      ((s' true).node.accepted, (t true).node.accepted, (t false).node.view.queue,
        decide ((s' false).node.sent = (t false).node.sent))) =
      some ([⟨0, [1]⟩], [⟨0, [1]⟩], [], false) := by decide +kernel
  obtain ⟨s, hs, hrun⟩ := Option.bind_eq_some_iff.mp hrun
  obtain ⟨s', hs', hrun⟩ := Option.bind_eq_some_iff.mp hrun
  obtain ⟨t, ht, hobs⟩ := Option.map_eq_some_iff.mp hrun
  simp only [Prod.mk.injEq] at hobs
  obtain ⟨hacc', hacc, hqueue, hsent⟩ := hobs
  obtain ⟨queued, accepted, removed, hq, ha, -, hr, hra, -⟩ := hall linked s s' t false
    matched_linked (run_of_exec hs) hs' (run_of_exec ht)
  have haccepted : accepted = [] := by
    have ha' : [(⟨0, [1]⟩ : Packet)] = [⟨0, [1]⟩] ++ accepted := by
      rw [← hacc']
      exact (hacc'.trans hacc.symm).trans ha
    simpa using ha'
  have hremoved : removed = [] := List.prefix_nil.mp (haccepted ▸ hra)
  rw [hremoved, hqueue] at hr
  simp only [hr, List.append_nil] at hq
  exact of_decide_eq_false hsent hq.symm

theorem queue_reset_while_transmitting : ∃ s' t, Delivered s' t false ∧
    (t true).node.received = [⟨0, [2]⟩] := by
  have hrun : ((exec step (fun s a => s.Proper a ∧ Timely false s a) linked
      ([.own true (.event .strobe ⟨true, 0⟩)] ++ sendByte false 1)).bind fun s =>
      (s.step (.own false .txQueueReset)).bind fun s' =>
      (exec step (fun s a => s.Proper a ∧ Timely false s a ∧ ¬ QueueReset false a) s'
        ([.own false (.event .tx ⟨true, 0⟩)] ++ sendByte false 2 ++
          [arrive false, arrive true, .own true .rxDone])).map fun t =>
      (decide (Awaited false s), (t true).node.received)) = some (true, [⟨0, [2]⟩]) := by
    decide +kernel
  obtain ⟨s, hs, hrun⟩ := Option.bind_eq_some_iff.mp hrun
  obtain ⟨s', hs', hrun⟩ := Option.bind_eq_some_iff.mp hrun
  obtain ⟨t, ht, hobs⟩ := Option.map_eq_some_iff.mp hrun
  simp only [Prod.mk.injEq] at hobs
  exact ⟨s', t, queue_reset_discards_only_earlier matched_linked (run_of_exec hs)
    (of_decide_eq_true hobs.1) hs' (run_of_exec ht), hobs.2⟩

end Air
end WixelSdk.RadioLink
