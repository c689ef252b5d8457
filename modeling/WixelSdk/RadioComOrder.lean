import WixelSdk.RadioComReceive

/-!
# Bytes and control signals in order

With radioComRxEnforceOrdering the layer is an ordered reader, so that what the higher-level code has
been told is a beginning of the stream of accepted packets. `receiveMorePackets` returns, and when it
finds nothing, nothing is left.
-/

namespace WixelSdk.RadioCom
open RadioMac RadioLink Transition InBand

def Known (p : Packet) : Prop :=
  p.payloadType = payloadTypeData ∨ p.payloadType = payloadTypeControlSignals

namespace Com

variable {c d : Com}

theorem interrupt_of_nil (h : c.interrupts = []) : c.interrupt = c := by
  cases c
  simp only at h
  subst h
  simp [interrupt, Node.visits]

/-- An iteration that goes on takes control signals from the ring. -/
theorem receiveLoop_succ_of_error {fuel : ℕ} (h : Reading c) (hleft : c.rxBytesLeft = 0)
    (hreported : c.waitingToReportRxSignals = false) (hd : c.receiveLoop (fuel + 1) = .error d)
    (hknown : ∀ p ∈ d.link.accepted, Known p) :
    ∃ slot, Fetches c slot payloadTypeControlSignals ∧
      (c.interrupt.takeSignals slot).waitingToReportRxSignals = false ∧
      (c.interrupt.takeSignals slot).interrupt.receiveLoop fuel = .error d := by
  have hadvances := (rxRule_advances c).receiveLoop (.refl h) hleft hreported (Or.inr hd)
  simp only [receiveLoop] at hd
  split at hd
  · cases hd
  · rename_i slot hslot
    split_ifs at hd with hdata hsignals hwait
    · exact ⟨slot, ⟨hleft, hreported, hslot, hsignals⟩, Bool.eq_false_iff.mpr hwait, hd⟩
    · obtain ⟨-, ps, hin⟩ := Node.inbox_of_current h.serviceable.toInRange hslot
      have hmem := h.accepted _ (by rw [hin]; exact List.mem_cons_self)
      rcases hknown _ (hadvances.accepted.subset hmem) with htype | htype
      · exact absurd htype hdata
      · exact absurd htype hsignals

theorem reading_next {slot : ℕ} (h : Reading c) (hf : Fetches c slot payloadTypeControlSignals) :
    Reading (c.interrupt.takeSignals slot).interrupt := by
  have htake := (advances_takeSignals h hf).reading
  exact htake.still (rxStill_interrupt htake.serviceable)

/-- Without interrupts, each iteration that goes on makes the ring shorter. -/
theorem length_inbox_of_error {fuel : ℕ} (h : Reading c) (hleft : c.rxBytesLeft = 0)
    (hreported : c.waitingToReportRxSignals = false) (hquiet : c.interrupts = [])
    (hd : c.receiveLoop fuel = .error d) (hknown : ∀ p ∈ d.link.accepted, Known p) :
    fuel ≤ c.link.view.inbox.length := by
  induction fuel generalizing c with
  | zero => exact Nat.zero_le _
  | succ fuel ih =>
      obtain ⟨slot, hf, hnext, hloop⟩ := receiveLoop_succ_of_error h hleft hreported hd hknown
      obtain ⟨p, ps, hin, -⟩ := hf.inbox h
      rw [interrupt_of_nil hquiet] at hin
      have hreading := reading_next h hf
      have hsame : (c.interrupt.takeSignals slot).interrupt =
          (c.noteSignals (c.rxByte slot 2)).radioLinkRxDoneWithPacket := by
        rw [interrupt_of_nil hquiet, takeSignals,
          interrupt_of_nil (c := c.noteSignals (c.rxByte slot 2)) hquiet]
        exact interrupt_of_nil hquiet
      rw [hsame] at hreading hloop
      have hin' : (c.noteSignals (c.rxByte slot 2)).radioLinkRxDoneWithPacket.link.view.inbox = ps :=
        Node.inbox_radioLinkRxDoneWithPacket h.serviceable.toInRange hin
      rw [interrupt_of_nil hquiet, takeSignals,
        interrupt_of_nil (c := c.noteSignals (c.rxByte slot 2)) hquiet] at hnext
      have hle := ih hreading hleft hnext hquiet hloop
      rw [hin'] at hle
      rw [hin, List.length_cons]
      exact Nat.succ_le_succ hle

theorem fuel_of_error {fuel : ℕ} (h : Reading c) (hleft : c.rxBytesLeft = 0)
    (hreported : c.waitingToReportRxSignals = false) (hd : c.receiveLoop fuel = .error d)
    (hknown : ∀ p ∈ d.link.accepted, Known p) : fuel < c.interrupts.length + rxPacketCount := by
  induction fuel generalizing c with
  | zero => exact Nat.lt_of_lt_of_le (by decide) (Nat.le_add_left rxPacketCount _)
  | succ fuel ih =>
      cases his : c.interrupts with
      | nil =>
          have hle := length_inbox_of_error h hleft hreported his hd hknown
          have hlt : c.link.view.inbox.length < rxPacketCount := by
            rw [← Node.rxOwned_eq_length]
            exact Ring.count_lt h.serviceable.rxMain h.serviceable.rxInterrupt
          exact Nat.lt_of_lt_of_le (Nat.lt_of_le_of_lt hle hlt) (Nat.le_add_left _ _)
      | cons i is =>
          obtain ⟨slot, hf, hnext, hloop⟩ := receiveLoop_succ_of_error h hleft hreported hd hknown
          have hlt := ih (reading_next h hf) hleft hnext hloop
          have hshort : (c.interrupt.takeSignals slot).interrupt.interrupts = is.tail.tail := by
            change c.interrupts.tail.tail.tail = _
            rw [his, List.tail_cons]
          rw [hshort, List.length_tail, List.length_tail] at hlt
          rw [List.length_cons]
          omega

/-- `receiveMorePackets` returns, unless a packet of a third type was accepted. -/
theorem receiveMorePackets_returns (h : Reading c) :
    (∃ d, c.receiveMorePackets = .ok d) ∨
      ∃ d, c.receiveMorePackets = .error d ∧ ∃ p ∈ d.link.accepted, ¬ Known p := by
  cases hd : c.receiveMorePackets with
  | ok d => exact Or.inl ⟨d, rfl⟩
  | error d =>
      refine Or.inr ⟨d, rfl, ?_⟩
      by_contra hnone
      have hknown : ∀ p ∈ d.link.accepted, Known p := fun p hp =>
        by_contra fun hk => hnone ⟨p, hp, hk⟩
      unfold receiveMorePackets at hd
      split_ifs at hd with hleft hwait
      exact Nat.lt_irrefl _
        (fuel_of_error h (not_not.mp hleft) (Bool.eq_false_iff.mpr hwait) hd hknown)

theorem unread_of_none (h : Reading c) (hleft : c.rxBytesLeft = 0)
    (hnone : c.link.radioLinkRxCurrentPacket = none) : c.unread = [] := by
  rw [unread_of_done hleft]
  cases hin : c.link.view.inbox with
  | nil => rfl
  | cons p ps =>
      rw [(Node.inbox_cons h.serviceable.toInRange hin).1] at hnone
      cases hnone

theorem receiveLoop_exhausts {fuel : ℕ} (h : Reading c) (hleft : c.rxBytesLeft = 0)
    (hreported : c.waitingToReportRxSignals = false) (hd : c.receiveLoop fuel = .ok d)
    (hleft' : d.rxBytesLeft = 0) (hreported' : d.waitingToReportRxSignals = false) :
    d.unread = [] := by
  induction fuel generalizing c with
  | zero => cases hd
  | succ fuel ih =>
      simp only [receiveLoop] at hd
      split at hd
      · rename_i hnone
        obtain rfl := Except.ok.inj hd
        exact unread_of_none h hleft hnone
      · rename_i slot hslot
        split_ifs at hd with hdata hsignals hwait
        · obtain rfl := Except.ok.inj hd
          obtain ⟨p, ps, -, -, hp, -, hpacket⟩ :=
            Fetches.inbox ⟨hleft, hreported, hslot, hdata⟩ h
          exact absurd hleft' (rxByte_length hpacket hp).2
        · obtain rfl := Except.ok.inj hd
          rw [hwait] at hreported'
          cases hreported'
        · exact ih (reading_next h ⟨hleft, hreported, hslot, hsignals⟩) hleft
            (Bool.eq_false_iff.mpr hwait) hd
        · exact ih (h.still (rxStill_interrupt h.serviceable)) hleft hreported hd

theorem receiveMorePackets_exhausts (h : Reading c) (hd : c.receiveMorePackets = .ok d)
    (hleft : d.rxBytesLeft = 0) (hreported : d.waitingToReportRxSignals = false) :
    d.unread = [] := by
  unfold receiveMorePackets at hd
  split_ifs at hd with hl hw
  · obtain rfl := Except.ok.inj hd
    exact absurd hleft hl
  · obtain rfl := Except.ok.inj hd
    rw [hw] at hreported
    cases hreported
  · exact receiveLoop_exhausts h (not_not.mp hl) (Bool.eq_false_iff.mpr hw) hd hleft hreported

end Com

namespace Host

variable {h : Host}

theorem conserved_init (enforce : Bool) (channel : UInt8) :
    Conserved 0 (init enforce channel).view := ⟨rfl, rfl, rfl⟩

/-- With radioComRxEnforceOrdering, bytes and changes of the control signals come out in the order of
the accepted packets, each byte while its own control signals are the last ones returned. -/
theorem received_in_order {channel : UInt8}
    (hr : Run step (fun h a => ReceiveRule h a ∧ StaysOnChannel a) (init true channel) h) :
    data (told h.log) ++ dataBytes h.com.unread = dataBytes h.com.link.accepted ∧
    stamp 0 (told h.log) <+: stamped 0 h.com.link.accepted ∧
    normal 0 (told h.log) <+: normal 0 (items h.com.link.accepted) ∧
    ∀ is, (∃ d, (h.com.schedule is).receiveMorePackets = .ok d ∧
        (d.rxBytesLeft = 0 → d.waitingToReportRxSignals = false → d.unread = [])) ∨
      ∃ d, (h.com.schedule is).receiveMorePackets = .error d ∧
        ∃ p ∈ d.link.accepted, ¬ Known p := by
  have hinv : Receiving h ∧ h.com.radioComRxEnforceOrdering = true ∧ Conserved 0 h.view := by
    refine Run.invariant (I := fun h : Host => Receiving h ∧
      h.com.radioComRxEnforceOrdering = true ∧ Conserved 0 h.view) hr
      ⟨receiving_init true channel, rfl, conserved_init true channel⟩ ?_
    rintro h a t ⟨hrec, henforce, hcons⟩ ⟨hrule, hstay⟩ ht
    have hp := hrec.step hrule hstay ht
    exact ⟨hp.receiving, hp.radioComRxEnforceOrdering.trans henforce,
      hcons.of_moves hp.moves henforce⟩
  obtain ⟨hrec, -, hcons⟩ := hinv
  refine ⟨?_, hcons.stamp_prefix, hcons.output_prefix, fun is => ?_⟩
  · have hdata := hcons.data_eq
    change data (items h.com.link.accepted) = data (told h.log) ++ data (items h.com.unread) at hdata
    rw [data_items, data_items] at hdata
    exact hdata.symm
  · have hreading := hrec.reading.still (Com.rxStill_schedule hrec.reading.serviceable is)
    rcases Com.receiveMorePackets_returns hreading with ⟨d, hd⟩ | hd
    · exact Or.inl ⟨d, hd, Com.receiveMorePackets_exhausts hreading hd⟩
    · exact Or.inr hd

/-- The signals 3 have to be returned before the byte 7 that was received after them. -/
theorem received_in_order_after_signals : ∃ h : Host,
    (told h.log = [.signal 3, .data 7] ∧ h.com.link.accepted = [⟨1, [3]⟩, ⟨0, [7]⟩]) ∧
    data (told h.log) ++ dataBytes h.com.unread = dataBytes h.com.link.accepted ∧
    stamp 0 (told h.log) <+: stamped 0 h.com.link.accepted ∧
    normal 0 (told h.log) <+: normal 0 (items h.com.link.accepted) ∧
    ∀ is, (∃ d, (h.com.schedule is).receiveMorePackets = .ok d ∧
        (d.rxBytesLeft = 0 → d.waitingToReportRxSignals = false → d.unread = [])) ∨
      ∃ d, (h.com.schedule is).receiveMorePackets = .error d ∧
        ∃ p ∈ d.link.accepted, ¬ Known p := by
  have hrun : (exec step (fun h a => ReceiveRule h a ∧ StaysOnChannel a) (init true 128)
      [.interrupts (startListening ++ receiveFrame [2, 2, 3] ++ receiveFrame [2, 1, 7]),
        .rxAvailable [], .rxControlSignals [], .rxAvailable [], .rxReceiveByte []]).map
      (fun h => (told h.log, h.com.link.accepted)) =
      some ([.signal 3, .data 7], [⟨1, [3]⟩, ⟨0, [7]⟩]) := by decide +kernel
  obtain ⟨h, hr, hobs⟩ := exists_run_of_exec hrun
  exact ⟨h, Prod.mk.inj hobs, received_in_order hr⟩

end Host
end WixelSdk.RadioCom
