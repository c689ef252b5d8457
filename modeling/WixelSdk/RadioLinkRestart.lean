import WixelSdk.RadioLinkDelivery

/-!
# A node that restarts

A restarted node announces itself with reset frames until an acknowledgement arrives. The handshake
does not say which frame was acknowledged: a node that still sends resets answers a data frame with
its own first packet, and any ACK ends the handshake. `Unmistaken` names the two deliveries that go
wrong; without them delivery from the restarted node is reliable and ordered whatever the peer
remembers.
-/

namespace WixelSdk.RadioLink
open RadioMac StopAndWait Transition

namespace Air

/-- Node `x` loses its memory and calls `radioLinkInit`. -/
def restart (s : Air) (x : Bool) (param_radio_channel : UInt8) : Air :=
  Function.update s x (Station.init param_radio_channel)

/-- No reset frame from `x` arrives once the peer has accepted a packet since the restart, and no ACK
ends the handshake of `x` while the peer has accepted nothing and would take a packet with sequence
bit 0 for a repetition. -/
def Unmistaken (accepted₀ : List Packet) (x : Bool) (s : Air) : AirAction → Prop
  | .deliver y _ _ _ =>
      if y = x then ∀ frame ∈ (s x).node.transmitting, kindOf (frame 1) = .reset →
        (s !x).node.accepted = accepted₀
      else ∀ frame ∈ (s !x).node.transmitting, kindOf (frame 1) = .ack →
        (s x).node.sendingReset = true → (s !x).node.accepted ≠ accepted₀ ∨
          (s !x).node.acceptAnySequenceBit = true ∨ (s !x).node.rxSequenceBit = true
  | _ => True

/-- What both main loops and the air may do after `x` has restarted. -/
def Restarted (accepted₀ : List Packet) (x : Bool) (s : Air) (a : AirAction) : Prop :=
  s.Proper a ∧ ¬ QueueReset x a ∧ Unmistaken accepted₀ x s a

instance (accepted₀ : List Packet) (x : Bool) (s : Air) (a : AirAction) :
    Decidable (Unmistaken accepted₀ x s a) := by
  rcases a with ⟨⟩ <;> dsimp only [Unmistaken] <;> infer_instance

instance (accepted₀ : List Packet) (x : Bool) (s : Air) (a : AirAction) :
    Decidable (Restarted accepted₀ x s a) := inferInstanceAs (Decidable (_ ∧ _ ∧ _))

variable {s t : Air} {x : Bool} {channel : UInt8} {accepted₀ : List Packet} {a : AirAction}

@[simp] theorem restart_self : s.restart x channel x = Station.init channel :=
  Function.update_self _ _ _

@[simp] theorem restart_peer : s.restart x channel (!x) = s !x :=
  Function.update_of_ne (by simp) _ _

theorem sound_restart (hpeer : (s !x).node.Sound) (channel : UInt8) :
    (s.restart x channel).Sound := by
  intro y
  by_cases hy : y = x
  · subst hy
    rw [restart_self]
    exact Node.sound_radioLinkInit channel
  · obtain rfl : y = !x := by cases x <;> cases y <;> simp_all
    rw [restart_peer]
    exact hpeer

theorem restart_air : ((s.restart x channel).view x).air = none := by
  simp [view, restart_self, Station.init, Node.view, Node.transmitting, Node.radioLinkInit,
    Node.radioMacStrobe, Mac.radioMacStrobe, Mac.radioMacInit, Node.powerUp, Mac.powerUp]

theorem inSync_restart :
    InSync (s.restart x channel x).node.sent (s !x).node.accepted x (s.restart x channel).view := by
  have hnode : (s.restart x channel).view x = (Station.init channel).node.view :=
    congrArg (fun u => u.node.view) restart_self
  have hpeer : ((s.restart x channel).view !x).accepted = (s !x).node.accepted :=
    congrArg (fun u => u.node.accepted) restart_peer
  rw [← hpeer]
  apply inSync_of_idle _ restart_air
  · intro _
    rw [hnode]
    rfl
  · intro hres
    rw [hnode] at hres
    cases hres
  · rw [hnode]
    rfl

theorem clean_of_unmistaken {m : Move Packet} (hair : (s.view x).OnAir)
    (ha : Restarted accepted₀ x s a) (hm : s.move a = some m) : Clean 2 accepted₀ x s.view m := by
  obtain ⟨-, hreset, ha⟩ := ha
  cases a with
  | own y b => exact clean_own hreset hm
  | deliver y status r r' =>
      obtain rfl := Option.some.inj hm
      simp only [Unmistaken] at ha
      simp only [Clean]
      split_ifs at ha ⊢ with hy
      · intro f hf
        refine ⟨fun hk => ?_, fun b p hb => Or.inl (hair.body f b p hf hb)⟩
        obtain ⟨frame, hframe, rfl⟩ := Option.map_eq_some_iff.mp hf
        exact ha frame hframe hk
      · rintro ⟨f, hf, hk⟩ hres
        obtain ⟨frame, hframe, rfl⟩ := Option.map_eq_some_iff.mp hf
        rcases ha frame hframe hk hres with hacc | hany | hbit
        · exact Or.inl hacc
        · exact Or.inr (Or.inl hany)
        · exact Or.inr (Or.inr fun hc => by
            have hbit' : (s.view !x).rxBit = true := hbit
            rw [hc] at hbit'
            cases hbit')

/-- After a restart that is not mistaken, what the restarted node queues is delivered in order and
exactly once, whatever state its peer was in. -/
theorem restart_delivers (hpeer : (s !x).node.Sound)
    (hr : Run step (Restarted (s !x).node.accepted x) (s.restart x channel) t) :
    Delivered (s.restart x channel) t x := by
  have hsound := sound_restart hpeer channel
  have hstrong := hr.strengthen (I := fun s => s.Sound ∧ (s.view x).OnAir)
    ⟨hsound, Party.onAir_of_air _ restart_air⟩
    (fun s a t ⟨hs, ho⟩ ha hst => ⟨sound_step hs ha.1 hst, onAir_step ho hs ha.1 ha.2.1 hst⟩)
  obtain ⟨ht, hsync⟩ := inSync_run hstrong hsound inSync_restart (fun _ _ ha => ha.1.1)
    (fun s a m ⟨ha, _, ho⟩ hm => clean_of_unmistaken ho ha hm)
  refine delivered_of_inSync ht ?_
  rw [restart_peer]
  exact hsync

/-- The peer is in the middle of a session and has a packet to send. -/
def midSession : List AirAction :=
  [.own true (.event .strobe ⟨true, 0⟩)] ++ sendByte false 1 ++ [arrive false, arrive true,
    .own true (.storeTx 1 1), .own true (.storeTx 2 9),
    .own true (.sendPacket 0), .own true .strobe]

/-- The restarted node queues a packet, its reset frame is lost, and the peer sends its packet. -/
def answered : List AirAction :=
  sendByte false 2 ++ [.own false (.event .tx ⟨true, 0⟩), .own true (.event .strobe ⟨true, 0⟩),
    arrive true, arrive false, arrive true, arrive false, arrive true]

/-- The packet that rides on the answer looks like a repetition to the peer, and the acknowledgement
of that answer ends the handshake. -/
theorem packet_lost_after_restart :
    ¬ ∀ (s₀ s t : Air) (x : Bool) (channel : UInt8), s₀.Matched → Run step Session s₀ s →
      Run step Session (s.restart x channel) t → Delivered (s.restart x channel) t x := by
  intro hall
  have hrun : ((exec step Session linked midSession).bind fun s =>
      (exec step Session (s.restart false 0) answered).map fun t =>
      ((s true).node.accepted, (t true).node.accepted, (t false).node.sent,
        (t false).node.view.queue)) =
      some ([⟨0, [1]⟩], [⟨0, [1]⟩], [⟨0, [2]⟩], []) := by decide +kernel
  obtain ⟨s, hs, hrun⟩ := Option.bind_eq_some_iff.mp hrun
  obtain ⟨t, ht, hobs⟩ := Option.map_eq_some_iff.mp hrun
  simp only [Prod.mk.injEq] at hobs
  obtain ⟨hacc₀, hacc, hsent, hqueue⟩ := hobs
  obtain ⟨queued, accepted, removed, hq, ha, -, hr, hra, -⟩ := hall linked s t false 0
    matched_linked (run_of_exec hs) (run_of_exec ht)
  have haccepted : accepted = [] := by
    have ha' : [(⟨0, [1]⟩ : Packet)] = [⟨0, [1]⟩] ++ accepted := by
      rw [← hacc₀]
      exact (hacc₀.trans hacc.symm).trans ha
    simpa using ha'
  have hremoved : removed = [] := List.prefix_nil.mp (haccepted ▸ hra)
  have hqueued : queued = [(⟨0, [2]⟩ : Packet)] := hq.symm.trans hsent
  rw [hremoved, hqueue, hqueued] at hr
  cases hr

/-- Both nodes are fresh. The peer's acknowledgement is lost, and the reset frame that follows makes
the peer accept the same packet once more. -/
example : ((exec step Session (restart (fun _ => Station.init 0) false 0)
    ([.own false (.event .strobe ⟨true, 0⟩), .own false (.event .tx ⟨true, 0⟩),
      .own true (.event .strobe ⟨true, 0⟩), arrive true, arrive false, .own false (.storeTx 1 1),
      .own false (.storeTx 2 2), .own false (.sendPacket 0), .own false .strobe] ++
      sendByte true 9 ++ [arrive true, arrive false, .own true (.event .tx ⟨true, 0⟩),
      .own false (.event .rxTimeout ⟨true, 0⟩), arrive false, arrive true, arrive false])).map
    fun t => ((t false).node.sent, (t true).node.accepted)) =
    some ([⟨0, [2]⟩], [⟨0, [2]⟩, ⟨0, [2]⟩]) := by decide +kernel

theorem restart_delivers_a_byte : ∃ s t, Delivered (restart s false 0) t false ∧
    (t true).node.received = (s true).node.received ++ [⟨0, [1]⟩, ⟨0, [2]⟩] := by
  have hrun : ((exec step Session linked midSession).bind fun s =>
      (exec step (Restarted (s true).node.accepted false) (s.restart false 0)
        ([.own true (.event .strobe ⟨true, 0⟩), .own true (.event .tx ⟨true, 0⟩)] ++
          sendByte false 2 ++ [arrive false, arrive true, arrive false, arrive true,
          .own true .rxDone, .own true .rxDone])).map fun t =>
      decide ((t true).node.received = (s true).node.received ++ [⟨0, [1]⟩, ⟨0, [2]⟩])) =
      some true := by decide +kernel
  obtain ⟨s, hs, hrun⟩ := Option.bind_eq_some_iff.mp hrun
  obtain ⟨t, ht, hobs⟩ := Option.map_eq_some_iff.mp hrun
  have hsound := sound_run (run_of_exec hs) matched_linked.sound fun _ _ ha => ha.1
  exact ⟨s, t, restart_delivers (hsound true) (run_of_exec ht), of_decide_eq_true hobs⟩

end Air
end WixelSdk.RadioLink
