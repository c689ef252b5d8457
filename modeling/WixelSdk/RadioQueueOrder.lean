import WixelSdk.HandOver
import WixelSdk.RadioQueueOwnership

/-!
# Packets pass the radio queue once and in order

The packets of either direction are followed through their ring: what has passed it, followed by
what it still holds, is what entered it. `Ordered` adds that the hand-overs to `radioMacTx` form a
`HandOver` of the queued packets, and it is kept by every call, DMA transfer and event.
-/

namespace WixelSdk.RadioQueue
open RadioMac Transition
open RadioLink (Buf dmaStore)

/-! ### The history -/

namespace History

variable (h es : History)

@[simp] theorem queued_append : queued (h ++ es) = h.queued ++ es.queued :=
  List.filterMap_append

@[simp] theorem handed_append : handed (h ++ es) = h.handed ++ es.handed :=
  List.filterMap_append

@[simp] theorem transmitted_append : transmitted (h ++ es) = h.transmitted ++ es.transmitted :=
  List.filterMap_append

@[simp] theorem wanted_append : wanted (h ++ es) = h.wanted ++ es.wanted :=
  List.filterMap_append

@[simp] theorem presented_append : presented (h ++ es) = h.presented ++ es.presented :=
  List.filterMap_append

@[simp] theorem interrupted_append : interrupted (h ++ es) = (h.interrupted || es.interrupted) :=
  List.any_append

end History

def Queue.active (q : Queue) : Option Buf := q.transmitting.map q.buffer

/-- A queue and its history while the radio transmits the given packet. -/
structure Passing (q : Queue) (h : History) (active : Option Buf) : Prop where
  consistent : q.Consistent
  sent : h.transmitted ++ q.txPackets = h.queued
  received : h.presented ++ q.rxPackets = h.wanted
  handOver : HandOver h.queued h.transmitted h.handed h.interrupted active

abbrev Ordered (q : Queue) (h : History) : Prop := Passing q h q.active

variable {q : Queue} {h : History}

theorem Passing.append {es : History} {active : Option Buf} (hc : q.Consistent)
    (hs : (h.transmitted ++ es.transmitted) ++ q.txPackets = h.queued ++ es.queued)
    (hr : (h.presented ++ es.presented) ++ q.rxPackets = h.wanted ++ es.wanted)
    (ho : HandOver (h.queued ++ es.queued) (h.transmitted ++ es.transmitted)
      (h.handed ++ es.handed) (h.interrupted || es.interrupted) active) :
    Passing q (h ++ es) active where
  consistent := hc
  sent := by rw [History.transmitted_append, History.queued_append, hs]
  received := by rw [History.presented_append, History.wanted_append, hr]
  handOver := by
    rwa [History.queued_append, History.transmitted_append, History.handed_append,
      History.interrupted_append]

/-! ### The main loop and the DMA channel -/

theorem Queue.Consistent.active_eq (hq : q.Consistent) : q.active =
    if q.mac.radioMacState = .tx then
      some (q.radioQueueTxPacket q.radioQueueTxInterruptIndex) else none := by
  rw [Queue.active, hq.transmitting_eq]
  split_ifs <;> rfl

theorem Passing.queued_head {active : Option Buf} (ho : Passing q h active)
    (hne : q.radioQueueTxInterruptIndex ≠ q.radioQueueTxMainLoopIndex) :
    h.queued[h.transmitted.length]? = some (q.radioQueueTxPacket q.radioQueueTxInterruptIndex) := by
  rw [← ho.sent, List.getElem?_append_right le_rfl, Nat.sub_self, ← List.head?_eq_getElem?]
  exact Ring.contents_head? _ ho.consistent.txInterrupt ho.consistent.txMain hne

theorem Queue.Consistent.active_congr {q' : Queue} (hq : q.Consistent) (hq' : q'.Consistent)
    (hst : q'.mac.radioMacState = q.mac.radioMacState)
    (hp : q.mac.radioMacState = .tx → q'.radioQueueTxPacket q'.radioQueueTxInterruptIndex =
      q.radioQueueTxPacket q.radioQueueTxInterruptIndex) : q'.active = q.active := by
  rw [hq'.active_eq, hq.active_eq, hst]
  split_ifs with htx
  · rw [hp htx]
  · rfl

theorem Ordered.call (ho : Ordered q h) {c : Call} (hd : q.Documented c) :
    Ordered (q.call c) (h ++ Station.observeCall q c) := by
  have hc := ho.consistent.call hd
  have hin := ho.consistent.toInRange
  cases c with
  | storeTx offset b =>
      change Ordered _ (h ++ [])
      rw [List.append_nil]
      have hpackets : (q.call (.storeTx offset b)).txPackets = q.txPackets :=
        Ring.contents_update id _ _ hin.txMain
      have hactive : (q.call (.storeTx offset b)).active = q.active := by
        apply ho.consistent.active_congr hc rfl
        intro hst
        exact Function.update_of_ne (ho.consistent.tx hst).2 _ _
      exact ⟨hc, hpackets ▸ ho.sent, ho.received, hactive ▸ ho.handOver⟩
  | sendPacket =>
      have hfull := Queue.next_ne_of_radioQueueTxCurrentPacket hin hd
      have hpackets : (q.call .sendPacket).txPackets =
          q.txPackets ++ [q.radioQueueTxPacket q.radioQueueTxMainLoopIndex] :=
        Ring.contents_next_write _ hin.txInterrupt hin.txMain hfull
      have hactive : (q.call .sendPacket).active = q.active :=
        ho.consistent.active_congr hc rfl fun _ => rfl
      refine Passing.append hc ?_ ?_ ?_
      · change (h.transmitted ++ []) ++ _ = h.queued ++ [_]
        rw [List.append_nil, hpackets, ← List.append_assoc, ho.sent]
      · change (h.presented ++ []) ++ q.rxPackets = h.wanted ++ []
        rw [List.append_nil, List.append_nil, ho.received]
      · change HandOver (h.queued ++ [_]) (h.transmitted ++ []) (h.handed ++ [])
          (h.interrupted || false) _
        rw [List.append_nil, List.append_nil, Bool.or_false, hactive]
        exact ho.handOver.enqueue _
  | strobe => exact (List.append_nil h).symm ▸ ⟨hc, ho.sent, ho.received, ho.handOver⟩
  | rxDone =>
      have hne := Queue.radioQueueRxCurrentPacket_ne_none.mp hd
      have hpackets : q.rxPackets =
          q.radioQueueRxPacket q.radioQueueRxMainLoopIndex :: (q.call .rxDone).rxPackets :=
        Ring.contents_cons _ hin.rxMain hin.rxInterrupt hne
      refine Passing.append hc ?_ ?_ ?_
      · change (h.transmitted ++ []) ++ q.txPackets = h.queued ++ []
        rw [List.append_nil, List.append_nil, ho.sent]
      · change (h.presented ++ [_]) ++ _ = h.wanted ++ []
        rw [List.append_nil, List.append_assoc, List.singleton_append, ← hpackets, ho.received]
      · change HandOver (h.queued ++ []) (h.transmitted ++ []) (h.handed ++ [])
          (h.interrupted || false) q.active
        rw [List.append_nil, List.append_nil, List.append_nil, Bool.or_false]
        exact ho.handOver
  | allowCrcErrors allow =>
      exact (List.append_nil h).symm ▸ ⟨hc, ho.sent, ho.received, ho.handOver⟩

theorem Ordered.dmaReceive (ho : Ordered q h) (bytes : List UInt8) :
    Ordered (q.dmaReceive bytes) h := by
  have hc := ho.consistent.dmaReceive bytes
  obtain ⟨buf, he⟩ := ho.consistent.dmaReceive_eq bytes
  rw [he] at hc ⊢
  have hpackets := Ring.contents_update (r := q.radioQueueRxMainLoopIndex) id
    q.radioQueueRxPacket buf ho.consistent.rxInterrupt
  have hactive := ho.consistent.active_congr hc rfl fun _ => rfl
  refine ⟨hc, ho.sent, ?_, hactive ▸ ho.handOver⟩
  rw [← ho.received]
  exact congrArg (h.presented ++ ·) hpackets

/-! ### Events -/

theorem Passing.start (hb : Passing q h none) :
    Ordered q (h ++ Station.observeStart h.transmitted.length q) := by
  have hc := hb.consistent
  have htr := hc.transmitting_eq
  by_cases hst : q.mac.radioMacState = .tx
  · rw [if_pos hst] at htr
    have hactive : q.active = some (q.radioQueueTxPacket q.radioQueueTxInterruptIndex) := by
      rw [hc.active_eq, if_pos hst]
    rw [Station.observeStart, htr]
    refine Passing.append hc ?_ ?_ ?_
    · change (h.transmitted ++ []) ++ _ = h.queued ++ []
      rw [List.append_nil, List.append_nil, hb.sent]
    · change (h.presented ++ []) ++ _ = h.wanted ++ []
      rw [List.append_nil, List.append_nil, hb.received]
    · change HandOver (h.queued ++ []) (h.transmitted ++ []) (h.handed ++ [_])
        (h.interrupted || false) _
      rw [List.append_nil, List.append_nil, Bool.or_false, hactive]
      exact hb.handOver.start (hb.queued_head (hc.tx hst).2)
  · rw [if_neg hst] at htr
    have hactive : q.active = none := by rw [hc.active_eq, if_neg hst]
    rw [Station.observeStart, htr]
    exact (List.append_nil h).symm ▸ ⟨hc, hb.sent, hb.received, hactive ▸ hb.handOver⟩

theorem txPackets_radioMacEvent (q : Queue) (r : Readings) {e : MacEvent} (he : e ≠ .tx) :
    (q.radioMacEvent r e).txPackets = q.txPackets := by
  obtain ⟨m, hm⟩ := q.radioMacEvent_eq r e
  rw [hm, if_neg he]
  rfl

theorem rxPackets_radioMacEvent (q : Queue) (r : Readings) {e : MacEvent} (he : e ≠ .rx) :
    (q.radioMacEvent r e).rxPackets = q.rxPackets := by
  obtain ⟨m, hm⟩ := q.radioMacEvent_eq r e
  rw [hm, if_neg fun hrx => he hrx.1]
  rfl

/-- A TX event drops the packet that was transmitted from the ring. -/
theorem txPackets_tx (hc : q.Consistent) (r : Readings) (hst : q.mac.radioMacState = .tx) :
    q.txPackets = q.radioQueueTxPacket q.radioQueueTxInterruptIndex ::
      (q.radioMacEvent r .tx).txPackets := by
  obtain ⟨m, hm⟩ := q.radioMacEvent_eq r .tx
  rw [hm]
  exact Ring.contents_cons _ hc.txInterrupt hc.txMain (hc.tx hst).2

/-- An RX event adds the packet to the ring exactly if it is wanted. -/
theorem rxPackets_rx (hc : q.Consistent) (r : Readings) :
    (q.radioMacEvent r .rx).rxPackets = q.rxPackets ++ History.wanted
      [.received (q.radioQueueRxPacket q.radioQueueRxInterruptIndex) r.crcPassed
        q.radioQueueAllowCrcErrors q.rxOwned] := by
  have hacc : q.Accepts r ↔ (r.crcPassed = true ∨ q.radioQueueAllowCrcErrors = true) ∧
      q.radioQueueRxPacket q.radioQueueRxInterruptIndex 0 ≠ 0 ∧ q.rxOwned < 2 := by
    rw [Queue.rxOwned_lt_two hc.toInRange, Queue.Accepts, gt_iff_lt, UInt8.pos_iff_ne_zero]
  obtain ⟨m, hm⟩ := q.radioMacEvent_eq r .rx
  rw [hm]
  by_cases ha : q.Accepts r
  · have hw : History.wanted [.received (q.radioQueueRxPacket q.radioQueueRxInterruptIndex)
        r.crcPassed q.radioQueueAllowCrcErrors q.rxOwned] =
        [q.radioQueueRxPacket q.radioQueueRxInterruptIndex] := by
      simp [History.wanted, QueueEvent.wanted?, hacc.mp ha]
    rw [if_pos ⟨rfl, ha⟩, hw]
    exact Ring.contents_next_write _ hc.rxMain hc.rxInterrupt ha.2.2
  · have hw : History.wanted [.received (q.radioQueueRxPacket q.radioQueueRxInterruptIndex)
        r.crcPassed q.radioQueueAllowCrcErrors q.rxOwned] = [] := by
      have hna := hacc.not.mp ha
      simp only [History.wanted, List.filterMap_cons, QueueEvent.wanted?, if_neg hna,
        List.filterMap_nil]
    rw [if_neg fun hrx => ha hrx.2, hw, List.append_nil]
    rfl

theorem ended_tx (ho : Ordered q h) (r : Readings) (hst : q.mac.radioMacState = .tx) :
    Passing (q.radioMacEvent r .tx) (h ++ Station.observeEnd q r .tx) none := by
  have hc := ho.consistent
  have hactive : q.active = some (q.radioQueueTxPacket q.radioQueueTxInterruptIndex) := by
    rw [hc.active_eq, if_pos hst]
  have hes : Station.observeEnd q r .tx =
      [.transmitted (q.radioQueueTxPacket q.radioQueueTxInterruptIndex)] := by
    rw [Station.observeEnd, hc.transmitting_eq, if_pos hst]
    rfl
  have hover := ho.handOver
  rw [hactive] at hover
  rw [hes]
  refine Passing.append (Queue.consistent_radioMacEvent hc.toInRange r .tx) ?_ ?_ ?_
  · change (h.transmitted ++ [_]) ++ _ = h.queued ++ []
    rw [List.append_nil, List.append_assoc, List.singleton_append, ← txPackets_tx hc r hst, ho.sent]
  · change (h.presented ++ []) ++ _ = h.wanted ++ []
    rw [List.append_nil, List.append_nil, rxPackets_radioMacEvent q r (by decide), ho.received]
  · change HandOver (h.queued ++ []) (h.transmitted ++ [_]) (h.handed ++ [])
      (h.interrupted || false) none
    rw [List.append_nil, List.append_nil, Bool.or_false]
    exact hover.finish

theorem ended_rx (ho : Ordered q h) (r : Readings) (hst : q.mac.radioMacState = .rx) :
    Passing (q.radioMacEvent r .rx) (h ++ Station.observeEnd q r .rx) none := by
  have hc := ho.consistent
  have hactive : q.active = none := by
    rw [hc.active_eq, hst]
    rfl
  have hes : Station.observeEnd q r .rx =
      [.received (q.radioQueueRxPacket q.radioQueueRxInterruptIndex) r.crcPassed
        q.radioQueueAllowCrcErrors q.rxOwned] := by
    rw [Station.observeEnd, hc.receiving_eq hst]
    rfl
  rw [hes]
  refine Passing.append (Queue.consistent_radioMacEvent hc.toInRange r .rx) ?_ ?_ ?_
  · change (h.transmitted ++ []) ++ _ = h.queued ++ []
    rw [List.append_nil, List.append_nil, txPackets_radioMacEvent q r (by decide), ho.sent]
  · change (h.presented ++ []) ++ _ = h.wanted ++ _
    rw [List.append_nil, rxPackets_rx hc, ← List.append_assoc, ho.received]
  · change HandOver (h.queued ++ []) (h.transmitted ++ []) (h.handed ++ [])
      (h.interrupted || false) none
    rw [List.append_nil, List.append_nil, List.append_nil, Bool.or_false, ← hactive]
    exact ho.handOver

/-- An event that ends no transfer interrupts the transmission that is going on, if any. -/
theorem ended_other (ho : Ordered q h) (r : Readings) {e : MacEvent} (htx : e ≠ .tx)
    (hrx : e ≠ .rx) : Passing (q.radioMacEvent r e) (h ++ Station.observeEnd q r e) none := by
  have hc := ho.consistent
  have hes : Station.observeEnd q r e =
      if q.mac.radioMacState = .tx then [.interrupted] else [] := by
    cases e with
    | tx => exact absurd rfl htx
    | rx => exact absurd rfl hrx
    | _ =>
        simp only [Station.observeEnd, hc.transmitting_eq]
        split_ifs <;> rfl
  have hactive := hc.active_eq
  have hover := ho.handOver
  have hcons := Queue.consistent_radioMacEvent hc.toInRange r e
  by_cases hst : q.mac.radioMacState = .tx
  · rw [hes, if_pos hst]
    refine Passing.append hcons ?_ ?_ ?_
    · change (h.transmitted ++ []) ++ _ = h.queued ++ []
      rw [List.append_nil, List.append_nil, txPackets_radioMacEvent q r htx, ho.sent]
    · change (h.presented ++ []) ++ _ = h.wanted ++ []
      rw [List.append_nil, List.append_nil, rxPackets_radioMacEvent q r hrx, ho.received]
    · change HandOver (h.queued ++ []) (h.transmitted ++ []) (h.handed ++ [])
        (h.interrupted || true) none
      rw [List.append_nil, List.append_nil, List.append_nil, Bool.or_true]
      exact hover.interrupt
  · rw [if_neg hst] at hactive
    rw [hactive] at hover
    rw [hes, if_neg hst, List.append_nil]
    refine ⟨hcons, ?_, ?_, hover⟩
    · rw [txPackets_radioMacEvent q r htx, ho.sent]
    · rw [rxPackets_radioMacEvent q r hrx, ho.received]

theorem Ordered.ended (ho : Ordered q h) {e : MacEvent} (r : Readings) (hrep : q.mac.Reports e) :
    Passing (q.radioMacEvent r e) (h ++ Station.observeEnd q r e) none := by
  cases e with
  | tx => exact ended_tx ho r hrep
  | rx => exact ended_rx ho r hrep
  | rxTimeout => exact ended_other ho r (by decide) (by decide)
  | strobe => exact ended_other ho r (by decide) (by decide)

namespace Station

variable {s t : Station} {a : Action}

theorem ordered_step (ho : Ordered s.queue s.history) (ha : s.Documented a)
    (hs : s.step a = some t) : Ordered t.queue t.history := by
  cases a with
  | call c =>
      obtain ⟨b, -, rfl⟩ := Option.map_eq_some_iff.mp hs
      exact ho.call ha
  | dma bytes =>
      obtain rfl := Option.some.inj hs
      exact ho.dmaReceive bytes
  | event e r =>
      simp only [step] at hs
      split_ifs at hs with hrep
      obtain rfl := Option.some.inj hs
      exact (ho.ended r hrep).start
  | rfErrors f =>
      obtain rfl := Option.some.inj hs
      exact ⟨ho.consistent.reportErrors f, ho.sent, ho.received, ho.handOver⟩

theorem ordered_of_run {channel : UInt8} (hr : Run step Documented (init channel) s) :
    Ordered s.queue s.history := by
  refine Run.invariant (I := fun s => Ordered s.queue s.history) hr ?_
    fun _ _ _ h ha hs => ordered_step h ha hs
  exact ⟨Queue.consistent_radioQueueInit channel, rfl, rfl, HandOver.init⟩

/-- What has passed the queue, in either direction, and who may touch a packet meanwhile. -/
structure OnceInOrder (s : Station) : Prop where
  transmitted : s.history.transmitted ++ s.queue.txPackets = s.history.queued
  handed : HandOver s.history.queued s.history.transmitted s.history.handed s.history.interrupted
    s.queue.active
  exclusive : ∀ p, s.queue.transmitting = some p →
    (∃ i, p = .radioQueueTxPacket i ∧ s.queue.radioQueueTxCurrentPacket ≠ some i) ∧
      ∀ c, s.queue.Documented c → (s.queue.call c).buffer p = s.queue.buffer p
  presented : s.history.presented ++ s.queue.rxPackets = s.history.wanted
  current : s.queue.radioQueueRxCurrentPacket.map s.queue.radioQueueRxPacket =
    s.queue.rxPackets.head?

theorem transmitting_exclusive {q : Queue} (hc : q.Consistent) {p : Buffer}
    (hp : q.transmitting = some p) :
    (∃ i, p = .radioQueueTxPacket i ∧ q.radioQueueTxCurrentPacket ≠ some i) ∧
      ∀ c, q.Documented c → (q.call c).buffer p = q.buffer p := by
  rw [hc.transmitting_eq] at hp
  split_ifs at hp with hst
  obtain rfl := Option.some.inj hp
  have hne := (hc.tx hst).2
  refine ⟨⟨_, rfl, ?_⟩, ?_⟩
  · unfold Queue.radioQueueTxCurrentPacket
    split_ifs
    · simp
    · exact fun he => hne (Option.some.inj he).symm
  · intro c _
    cases c with
    | storeTx offset b => exact Function.update_of_ne hne _ _
    | _ => rfl

theorem rxCurrentPacket_eq_head {q : Queue} (hc : q.Consistent) :
    q.radioQueueRxCurrentPacket.map q.radioQueueRxPacket = q.rxPackets.head? := by
  unfold Queue.radioQueueRxCurrentPacket Queue.rxPackets
  split_ifs with he
  · rw [he, Ring.contents_self]
    rfl
  · rw [Ring.contents_head? _ hc.rxMain hc.rxInterrupt he]
    rfl

/-- Each packet passes the queue once and in order, whatever the order of calls and events. -/
theorem packets_pass_once_in_order {channel : UInt8}
    (hr : Run step Documented (init channel) s) : OnceInOrder s := by
  have ho := ordered_of_run hr
  exact ⟨ho.sent, ho.handOver, fun p hp => transmitting_exclusive ho.consistent hp, ho.received,
    rxCurrentPacket_eq_head ho.consistent⟩

/-- Two packets are queued, the first is sent, and one is received while the second is sent. -/
theorem packets_pass_once_in_order_both_ways : ∃ s, Run step Documented (init 0) s ∧
    (s.history.queued.map (· 1), s.history.transmitted.map (· 1), s.history.presented.map (· 1)) =
      ([7, 8], [7, 8], [9]) ∧ OnceInOrder s := by
  have hrun : (exec step Documented (init 0) [.call (.storeTx 0 1), .call (.storeTx 1 7),
      .call .sendPacket, .event .strobe ⟨true, 0⟩, .call .strobe, .call (.storeTx 0 1),
      .call (.storeTx 1 8), .call .sendPacket, .call .strobe, .event .tx ⟨true, 0⟩, .dma [1, 9],
      .event .rx ⟨true, 0⟩, .event .tx ⟨true, 0⟩, .call .rxDone]).map
      (fun s => (s.history.queued.map (· 1), s.history.transmitted.map (· 1),
        s.history.presented.map (· 1))) = some ([7, 8], [7, 8], [9]) := by decide +kernel
  obtain ⟨s, hr, hs⟩ := exists_run_of_exec hrun
  exact ⟨s, hr, hs, packets_pass_once_in_order hr⟩

end Station
end WixelSdk.RadioQueue
