import WixelSdk.RadioComReceive

/-!
# The loop of `receiveMorePackets`

An iteration returns, or another one follows. It releases a packet with redundant control signals, and
it leaves a packet of unknown type where it is. So the loop ends unless the first packet that is not
redundant, among those in the ring and those that arrive while the loop runs, has an unknown type.
-/

namespace WixelSdk.RadioLink.Node

variable {n m : Node}

/-- What the link puts into the receive ring: packets with data, between indices in range. -/
structure RingContent (n : Node) : Prop where
  serviceable : n.Serviceable
  data : ∀ p ∈ n.view.inbox, p.payload ≠ []

theorem RxQuiet.arrives (h : RxQuiet n m) : ∃ qs, m.accepted = n.accepted ++ qs ∧
    m.view.inbox = n.view.inbox ++ qs ∧ (∀ p ∈ qs, p.payload ≠ []) ∧ m.received = n.received := by
  obtain ⟨es, hes, hnone, hdata, hin⟩ := h.events
  refine ⟨_, ?_, hin, hdata, ?_⟩
  · rw [accepted, hes, List.filterMap_append]
    rfl
  · rw [received, hes, List.filterMap_append, List.filterMap_eq_nil_iff.mpr hnone, List.append_nil]
    rfl

theorem RingContent.quiet (h : n.RingContent) (hq : RxQuiet n m) (hm : m.Serviceable) :
    m.RingContent := by
  obtain ⟨qs, -, hin, hqs, -⟩ := hq.arrives
  refine ⟨hm, fun p hp => ?_⟩
  rw [hin] at hp
  exact (List.mem_append.mp hp).elim (h.data p) (hqs p)

theorem RingContent.done {p : Packet} {ps : List Packet} (h : n.RingContent)
    (hin : n.view.inbox = p :: ps) : n.radioLinkRxDoneWithPacket.RingContent ∧
      n.radioLinkRxDoneWithPacket.view.inbox = ps ∧
      n.radioLinkRxDoneWithPacket.accepted = n.accepted ∧
      n.radioLinkRxDoneWithPacket.received = n.received ++ [p] := by
  have hps := inbox_radioLinkRxDoneWithPacket h.serviceable.toInRange hin
  refine ⟨⟨h.serviceable.radioLinkRxDoneWithPacket, fun q hq => h.data q ?_⟩, hps, ?_, ?_⟩
  · rw [hps] at hq
    rw [hin]
    exact List.mem_cons_of_mem _ hq
  · exact (accepted_record _).trans (List.append_nil _)
  · rw [(inbox_cons h.serviceable.toInRange hin).2]
    exact received_record _

/-- One buffer of the ring is always the interrupt's. -/
theorem RingContent.length_inbox (h : n.RingContent) : n.view.inbox.length < rxPacketCount := by
  rw [← rxOwned_eq_length]
  exact Ring.count_lt h.serviceable.rxMain h.serviceable.rxInterrupt

end WixelSdk.RadioLink.Node

namespace WixelSdk.RadioCom
open RadioMac RadioLink Transition

/-- A packet with control signals that the higher-level code need not be told. -/
def redundant (enforceOrdering : Bool) (last : UInt8) (p : Packet) : Bool :=
  p.payloadType == payloadTypeControlSignals && (!enforceOrdering || p.payload.headD 0 == last)

namespace Com

variable {c d : Com} {p : Packet} {ps qs : List Packet}

/-- One iteration of the loop of `receiveMorePackets`. It returns, or the error is the state in which
the next iteration starts. -/
def receiveIteration (c : Com) : Except Com Com :=
  match c.link.radioLinkRxCurrentPacket with
  | none => .ok c
  | some slot =>
      if c.link.radioLinkRxCurrentPayloadType = payloadTypeData then
        .ok (c.interrupt.loadPacket slot)
      else if c.link.radioLinkRxCurrentPayloadType = payloadTypeControlSignals then
        if (c.interrupt.takeSignals slot).waitingToReportRxSignals then
          .ok (c.interrupt.takeSignals slot)
        else .error (c.interrupt.takeSignals slot).interrupt
      else .error c.interrupt

theorem receiveLoop_succ (c : Com) (fuel : ℕ) : c.receiveLoop (fuel + 1) =
    match c.receiveIteration with
    | .ok d => .ok d
    | .error d => d.receiveLoop fuel := by
  simp only [receiveLoop, receiveIteration]
  cases c.link.radioLinkRxCurrentPacket with
  | none => rfl
  | some slot => dsimp only; split_ifs <;> rfl

/-- The loop ends after finitely many iterations, each of which returns or releases a packet. -/
inductive LoopEnds : Com → Prop
  | returns {c d : Com} (h : c.receiveIteration = .ok d) : LoopEnds c
  | releases {c d : Com} {p : Packet} (h : c.receiveIteration = .error d)
      (hp : d.link.received = c.link.received ++ [p]) (hd : LoopEnds d) : LoopEnds c

def ReceiveEnds (c : Com) : Prop :=
  c.rxBytesLeft ≠ 0 ∨ c.waitingToReportRxSignals = true ∨ c.LoopEnds

/-- The first packet that is not redundant, among those in the ring and those that follow them. -/
def news (c : Com) (qs : List Packet) : Option Packet :=
  (c.link.view.inbox ++ qs).find? fun p =>
    !redundant c.radioComRxEnforceOrdering c.lastRxSignals p

def Readable (c : Com) (qs : List Packet) : Prop :=
  c.rxBytesLeft ≠ 0 ∨ c.waitingToReportRxSignals = true ∨
    ∀ p ∈ c.news qs, p.payloadType ≤ payloadTypeControlSignals

/-- The state at the start of an iteration. -/
structure Polling (c : Com) : Prop where
  content : c.link.RingContent
  rxBytesLeft : c.rxBytesLeft = 0
  reported : c.waitingToReportRxSignals = false

/-- The state after an iteration that did not return: the ring holds `ps` and what has arrived. -/
structure GoesOn (c d : Com) (ps qs : List Packet) : Prop where
  polling : d.Polling
  inbox : d.link.view.inbox = ps ++ qs
  accepted : d.link.accepted = c.link.accepted ++ qs
  radioComRxEnforceOrdering : d.radioComRxEnforceOrdering = c.radioComRxEnforceOrdering
  lastRxSignals : d.lastRxSignals = c.lastRxSignals
  interrupts : d.interrupts.length ≤ c.interrupts.length - 1
  quiet : c.interrupts = [] → qs = []

theorem interrupt_link (h : c.interrupts = []) : c.interrupt.link = c.link := by
  unfold Com.interrupt
  rw [h]
  rfl

theorem quiet_interrupt (h : c.link.RingContent) :
    Node.RxQuiet c.link c.interrupt.link ∧ c.interrupt.link.RingContent := by
  have hstill := rxStill_interrupt h.serviceable
  exact ⟨hstill.link, h.quiet hstill.link hstill.serviceable⟩

theorem Polling.interrupt (h : c.Polling) : ∃ qs, GoesOn c c.interrupt c.link.view.inbox qs ∧
    c.interrupt.link.received = c.link.received := by
  obtain ⟨hquiet, hcontent⟩ := quiet_interrupt h.content
  obtain ⟨qs, hacc, hin, -, hreceived⟩ := hquiet.arrives
  refine ⟨qs, ⟨⟨hcontent, h.rxBytesLeft, h.reported⟩, hin, hacc, rfl, rfl, ?_, fun hi => ?_⟩,
    hreceived⟩
  · exact Nat.le_of_eq List.length_tail
  · rw [interrupt_link hi] at hacc
    exact List.self_eq_append_right.mp hacc

theorem Polling.takeSignals (h : c.Polling) (hin : c.link.view.inbox = p :: ps) {d : Com}
    (hd : d = c.interrupt.takeSignals c.link.radioLinkRxMainLoopIndex) :
    (∃ qs, d.link.RingContent ∧ d.link.view.inbox = ps ++ qs ∧
      d.link.accepted = c.link.accepted ++ qs ∧ d.link.received = c.link.received ++ [p] ∧
      (c.interrupts = [] → qs = [])) ∧
    d.waitingToReportRxSignals =
      (c.radioComRxEnforceOrdering && p.payload.headD 0 != c.lastRxSignals) := by
  obtain ⟨hquiet, hcontent⟩ := quiet_interrupt h.content
  obtain ⟨qs₁, -, hin₁, -, -⟩ := hquiet.arrives
  rw [hin, List.cons_append] at hin₁
  have hp := (Node.inbox_cons hcontent.serviceable.toInRange hin₁).2
  have hpayload : p.payload ≠ [] := h.content.data p (by rw [hin]; exact List.mem_cons_self)
  have hbyte : c.interrupt.rxByte c.link.radioLinkRxMainLoopIndex 2 = p.payload.headD 0 := by
    rw [← hquiet.rxMain]
    rw [hp] at hpayload ⊢
    refine (headD_payload _ (Nat.pos_of_ne_zero fun hn => hpayload ?_)).symm
    exact List.length_eq_zero_iff.mp ((length_payload _ _).trans hn)
  obtain ⟨hquiet', hcontent'⟩ := quiet_interrupt (c := c.interrupt.noteSignals (p.payload.headD 0))
    hcontent
  obtain ⟨qs, hacc, hin₂, -, hreceived⟩ := (hquiet.trans hquiet').arrives
  rw [hin, List.cons_append] at hin₂
  obtain ⟨hdone, hin₃, hacc', hreceived'⟩ := hcontent'.done hin₂
  subst hd
  unfold Com.takeSignals
  rw [hbyte]
  refine ⟨⟨qs, hdone, hin₃, hacc'.trans hacc, hreceived'.trans (by rw [hreceived]), fun hi => ?_⟩,
    rfl⟩
  have hlink : (c.interrupt.noteSignals (p.payload.headD 0)).interrupt.link = c.link :=
    (interrupt_link (congrArg List.tail hi)).trans (interrupt_link hi)
  rw [hlink] at hacc
  exact List.self_eq_append_right.mp hacc

theorem redundant_of_signals {enforceOrdering : Bool} {last : UInt8}
    (hsignals : p.payloadType = payloadTypeControlSignals) :
    redundant enforceOrdering last p = !(enforceOrdering && p.payload.headD 0 != last) := by
  rw [redundant, hsignals, Bool.not_and, bne, Bool.not_not, beq_self_eq_true, Bool.true_and]

theorem redundant_of_ne {enforceOrdering : Bool} {last : UInt8}
    (hsignals : p.payloadType ≠ payloadTypeControlSignals) :
    redundant enforceOrdering last p = false := by
  rw [redundant, beq_eq_false_iff_ne.mpr hsignals]
  rfl

theorem le_payloadTypeControlSignals_iff {t : UInt8} : t ≤ payloadTypeControlSignals ↔
    t = payloadTypeData ∨ t = payloadTypeControlSignals := by
  revert t
  apply forall_byte
  decide +kernel

/-- Signals that are not reported: the loop goes on to the next packet. -/
theorem Polling.skip (h : c.Polling) (hin : c.link.view.inbox = p :: ps)
    (hold : (c.radioComRxEnforceOrdering && p.payload.headD 0 != c.lastRxSignals) = false) :
    ∃ qs, GoesOn c (c.interrupt.takeSignals c.link.radioLinkRxMainLoopIndex).interrupt ps qs ∧
      (c.interrupt.takeSignals c.link.radioLinkRxMainLoopIndex).interrupt.link.received =
        c.link.received ++ [p] := by
  obtain ⟨⟨qs, hcontent, hin', hacc', hreceived', hquiet'⟩, hwaiting⟩ := h.takeSignals hin rfl
  have hpolling : (c.interrupt.takeSignals c.link.radioLinkRxMainLoopIndex).Polling :=
    ⟨hcontent, h.rxBytesLeft, hwaiting.trans hold⟩
  obtain ⟨qs₃, hgoes₃, hreceived₃⟩ := hpolling.interrupt
  refine ⟨qs ++ qs₃, ⟨hgoes₃.polling, ?_, ?_, rfl, rfl, ?_, ?_⟩, ?_⟩
  · rw [hgoes₃.inbox, hin', List.append_assoc]
  · rw [hgoes₃.accepted, hacc', List.append_assoc]
  · refine Nat.le_trans hgoes₃.interrupts ?_
    change c.interrupts.tail.tail.length - 1 ≤ _
    simp only [List.length_tail]
    omega
  · intro hi
    rw [hquiet' hi, hgoes₃.quiet (congrArg (List.tail ∘ List.tail) hi)]
    rfl
  · rw [hreceived₃, hreceived']

/-- What an iteration does with the first packet of the ring. -/
theorem Polling.iteration (h : c.Polling) (hin : c.link.view.inbox = p :: ps) :
    (redundant c.radioComRxEnforceOrdering c.lastRxSignals p = true ∧ ∃ d qs,
      c.receiveIteration = .error d ∧ GoesOn c d ps qs ∧
      d.link.received = c.link.received ++ [p]) ∨
    (redundant c.radioComRxEnforceOrdering c.lastRxSignals p = false ∧
      p.payloadType ≤ payloadTypeControlSignals ∧
      ∃ d qs, c.receiveIteration = .ok d ∧ d.link.accepted = c.link.accepted ++ qs ∧
      (c.interrupts = [] → qs = [])) ∨
    (redundant c.radioComRxEnforceOrdering c.lastRxSignals p = false ∧
      ¬ p.payloadType ≤ payloadTypeControlSignals ∧
      ∃ d qs, c.receiveIteration = .error d ∧ GoesOn c d (p :: ps) qs ∧
      d.link.received = c.link.received) := by
  obtain ⟨hslot, hp⟩ := Node.inbox_cons h.content.serviceable.toInRange hin
  have htype : c.link.radioLinkRxCurrentPayloadType = p.payloadType := by rw [hp]; rfl
  obtain ⟨qs, hgoes, hreceived⟩ := h.interrupt
  rw [hin] at hgoes
  obtain ⟨⟨qs', -, -, hacc', -, hquiet'⟩, hwaiting⟩ := h.takeSignals hin rfl
  simp only [receiveIteration, hslot, htype, hwaiting, le_payloadTypeControlSignals_iff]
  by_cases hdata : p.payloadType = payloadTypeData
  · right; left
    rw [if_pos hdata]
    have hne : p.payloadType ≠ payloadTypeControlSignals := by
      rw [hdata]
      decide
    exact ⟨redundant_of_ne hne, .inl hdata, _, qs, rfl, hgoes.accepted, hgoes.quiet⟩
  rw [if_neg hdata]
  by_cases hsignals : p.payloadType = payloadTypeControlSignals
  · rw [if_pos hsignals, redundant_of_signals hsignals]
    by_cases hnew : (c.radioComRxEnforceOrdering && p.payload.headD 0 != c.lastRxSignals) = true
    · right; left
      rw [if_pos hnew, hnew]
      exact ⟨rfl, .inr hsignals, _, qs', rfl, hacc', hquiet'⟩
    · left
      have hold := Bool.eq_false_iff.mpr hnew
      rw [if_neg hnew, hold]
      obtain ⟨qs₃, hgoes₃, hreceived₃⟩ := h.skip hin hold
      exact ⟨rfl, _, qs₃, rfl, hgoes₃, hreceived₃⟩
  · right; right
    rw [if_neg hsignals]
    exact ⟨redundant_of_ne hsignals, not_or.mpr ⟨hdata, hsignals⟩, _, qs, rfl, hgoes, hreceived⟩

theorem receiveIteration_of_nil (h : c.Polling) (hin : c.link.view.inbox = []) :
    c.receiveIteration = .ok c := by
  have hmain : c.link.radioLinkRxMainLoopIndex = c.link.radioLinkRxInterruptIndex :=
    (Ring.contents_eq_nil _ h.content.serviceable.rxMain).mp hin
  rw [receiveIteration, Node.radioLinkRxCurrentPacket, if_pos hmain]

/-- Enough iterations for the interrupts to come, and for the packets that the ring then holds. -/
structure Enough (c : Com) (fuel : ℕ) : Prop where
  inbox : c.link.view.inbox.length < fuel
  interrupts : c.interrupts = [] ∨ c.interrupts.length + rxPacketCount ≤ fuel

theorem GoesOn.interrupts_eq_nil (h : GoesOn c d ps qs) (hi : c.interrupts = []) :
    d.interrupts = [] := by
  have hlen := h.interrupts
  rw [hi] at hlen
  exact List.length_eq_zero_iff.mp (Nat.le_zero.mp hlen)

theorem GoesOn.enough {fuel : ℕ} (h : GoesOn c d ps qs) (hin : c.link.view.inbox = p :: ps)
    (he : c.Enough (fuel + 1)) : d.Enough fuel := by
  have hlen := h.interrupts
  by_cases hnil : c.interrupts = []
  · have hinbox := he.inbox
    rw [hin] at hinbox
    refine ⟨?_, .inl (h.interrupts_eq_nil hnil)⟩
    rw [h.inbox, h.quiet hnil, List.append_nil]
    exact Nat.lt_of_succ_lt_succ hinbox
  · have hpos := List.length_pos_iff.mpr hnil
    have henough := he.interrupts.resolve_left hnil
    have hshort := h.polling.content.length_inbox
    exact ⟨by omega, .inr (by omega)⟩

theorem enough_receiveMorePackets (h : c.link.RingContent) :
    c.Enough (c.interrupts.length + rxPacketCount) :=
  ⟨Nat.lt_add_left _ h.length_inbox, .inr (Nat.le_refl _)⟩

theorem type_of_redundant {enforce : Bool} {last : UInt8} (h : redundant enforce last p = true) :
    p.payloadType = payloadTypeControlSignals := by
  rw [redundant, Bool.and_eq_true] at h
  exact eq_of_beq h.1

/-- A packet of unknown type at the front of the ring stays there. -/
theorem Polling.unknown (h : c.Polling) (hin : c.link.view.inbox = p :: ps)
    (hp : ¬ p.payloadType ≤ payloadTypeControlSignals) : ∃ d qs,
      c.receiveIteration = .error d ∧ GoesOn c d (p :: ps) qs ∧
      d.link.received = c.link.received := by
  rcases h.iteration hin with ⟨hr, -⟩ | ⟨-, hle, -⟩ | ⟨-, -, hgoes⟩
  · rw [type_of_redundant hr] at hp
    exact absurd (by decide) hp
  · exact absurd hle hp
  · exact hgoes

theorem Polling.diverges (h : c.Polling) (hin : c.link.view.inbox = p :: ps)
    (hp : ¬ p.payloadType ≤ payloadTypeControlSignals) (fuel : ℕ) : ∃ d qs,
      c.receiveLoop fuel = .error d ∧ d.link.accepted = c.link.accepted ++ qs ∧
      (c.interrupts = [] → qs = []) := by
  induction fuel generalizing c ps with
  | zero => exact ⟨c, [], rfl, (List.append_nil _).symm, fun _ => rfl⟩
  | succ fuel ih =>
      obtain ⟨e, qs, he, hgoes, -⟩ := h.unknown hin hp
      obtain ⟨d, qs', hd, hacc, hquiet⟩ := ih hgoes.polling hgoes.inbox
      refine ⟨d, qs ++ qs', ?_, ?_, fun hi => ?_⟩
      · rw [receiveLoop_succ, he]
        exact hd
      · rw [hacc, hgoes.accepted, List.append_assoc]
      · rw [hgoes.quiet hi, hquiet (hgoes.interrupts_eq_nil hi)]
        rfl

theorem Polling.not_loopEnds (h : c.Polling) (hin : c.link.view.inbox = p :: ps)
    (hp : ¬ p.payloadType ≤ payloadTypeControlSignals) : ¬ c.LoopEnds := by
  obtain ⟨e, qs, he, -, hreceived⟩ := h.unknown hin hp
  intro hends
  cases hends with
  | returns hd => rw [he] at hd; cases hd
  | releases hd hq =>
      obtain rfl := Except.error.inj (he.symm.trans hd)
      rw [hreceived] at hq
      exact List.cons_ne_nil _ _ (List.self_eq_append_right.mp hq)

/-- What the loop makes of the ring and of the packets `qs` that arrive while it runs. -/
structure Outcome (c : Com) (qs : List Packet) (fuel : ℕ) : Prop where
  accepted : ∀ d, c.receiveLoop fuel = .ok d ∨ c.receiveLoop fuel = .error d →
    d.link.accepted = c.link.accepted ++ qs
  quiet : c.interrupts = [] → qs = []
  returns : (∃ d, c.receiveLoop fuel = .ok d) ↔ ∀ p ∈ c.news qs, p.payloadType ≤
    payloadTypeControlSignals
  ends : c.LoopEnds ↔ ∀ p ∈ c.news qs, p.payloadType ≤ payloadTypeControlSignals
  diverges : ¬ (∀ p ∈ c.news qs, p.payloadType ≤ payloadTypeControlSignals) →
    ∀ k, ∃ d, c.receiveLoop k = .error d

theorem Outcome.of_ok {fuel : ℕ} (hd : c.receiveIteration = .ok d)
    (hacc : d.link.accepted = c.link.accepted ++ qs) (hquiet : c.interrupts = [] → qs = [])
    (hnews : ∀ p ∈ c.news qs, p.payloadType ≤ payloadTypeControlSignals) :
    c.Outcome qs (fuel + 1) := by
  have hloop : c.receiveLoop (fuel + 1) = .ok d := by rw [receiveLoop_succ, hd]
  refine ⟨fun e he => ?_, hquiet, iff_of_true ⟨d, hloop⟩ hnews, iff_of_true (.returns hd) hnews,
    absurd hnews⟩
  rw [hloop] at he
  obtain rfl := Except.ok.inj (he.resolve_right nofun)
  exact hacc

theorem Outcome.of_error {fuel : ℕ} {rs : List Packet} (hd : c.receiveIteration = .error d)
    (hin : c.link.view.inbox = p :: ps)
    (hp : redundant c.radioComRxEnforceOrdering c.lastRxSignals p = true) (hgoes : GoesOn c d ps qs)
    (hreceived : d.link.received = c.link.received ++ [p]) (h : d.Outcome rs fuel) :
    c.Outcome (qs ++ rs) (fuel + 1) := by
  have hloop : ∀ k, c.receiveLoop (k + 1) = d.receiveLoop k := fun k => by
    rw [receiveLoop_succ, hd]
  have hnews : c.news (qs ++ rs) = d.news rs := by
    rw [news, news, hin, hgoes.inbox, hgoes.radioComRxEnforceOrdering, hgoes.lastRxSignals,
      List.cons_append, List.find?_cons_of_neg (by rw [hp]; exact Bool.false_ne_true),
      List.append_assoc]
  refine ⟨fun e he => ?_, fun hi => ?_, ?_, ?_, fun hnot k => ?_⟩
  · rw [hloop] at he
    rw [h.accepted e he, hgoes.accepted, List.append_assoc]
  · rw [hgoes.quiet hi, h.quiet (hgoes.interrupts_eq_nil hi)]
    rfl
  · rw [hloop, hnews]
    exact h.returns
  · rw [hnews, ← h.ends]
    constructor
    · intro hends
      cases hends with
      | returns he => rw [hd] at he; cases he
      | releases he _ hends =>
          obtain rfl := Except.error.inj (hd.symm.trans he)
          exact hends
    · exact .releases hd hreceived
  · rw [hnews] at hnot
    cases k with
    | zero => exact ⟨c, rfl⟩
    | succ k => rw [hloop]; exact h.diverges hnot k

theorem news_of_cons (hin : c.link.view.inbox = p :: ps)
    (hp : redundant c.radioComRxEnforceOrdering c.lastRxSignals p = false) : c.news qs = some p := by
  rw [news, hin, List.cons_append, List.find?_cons_of_pos (by rw [hp]; rfl)]

theorem Polling.outcome {fuel : ℕ} (h : c.Polling) (he : c.Enough fuel) :
    ∃ qs, c.Outcome qs fuel := by
  induction fuel generalizing c with
  | zero => exact absurd he.inbox (Nat.not_lt_zero _)
  | succ fuel ih =>
      cases hin : c.link.view.inbox with
      | nil =>
          refine ⟨[], .of_ok (receiveIteration_of_nil h hin) (List.append_nil _).symm
            (fun _ => rfl) fun p hp => ?_⟩
          rw [news, hin] at hp
          cases hp
      | cons p ps =>
          rcases h.iteration hin with ⟨hr, d, qs, hd, hgoes, hreceived⟩ |
            ⟨hr, hle, d, qs, hd, hacc, hquiet⟩ | ⟨hr, hle, -⟩
          · obtain ⟨rs, hrs⟩ := ih hgoes.polling (hgoes.enough hin he)
            exact ⟨qs ++ rs, .of_error hd hin hr hgoes hreceived hrs⟩
          · refine ⟨qs, .of_ok hd hacc hquiet fun q hq => ?_⟩
            rw [news_of_cons hin hr] at hq
            obtain rfl := Option.some.inj hq
            exact hle
          · obtain ⟨d, qs, hd, hacc, hquiet⟩ := h.diverges hin hle (fuel + 1)
            have hnews : ¬ ∀ q ∈ c.news qs, q.payloadType ≤ payloadTypeControlSignals :=
              fun hall => hle (hall p (news_of_cons hin hr))
            refine ⟨qs, fun e he' => ?_, hquiet, iff_of_false ?_ hnews,
              iff_of_false (h.not_loopEnds hin hle) hnews, fun _ k => ?_⟩
            · rw [hd] at he'
              obtain rfl := Except.error.inj (he'.resolve_left nofun)
              exact hacc
            · rintro ⟨e, he'⟩
              rw [hd] at he'
              cases he'
            · obtain ⟨e, -, he', -⟩ := h.diverges hin hle k
              exact ⟨e, he'⟩

theorem radioComRxAvailable_ok (c : Com) : (∃ r, c.radioComRxAvailable = .ok r) ↔
    ∃ d, c.receiveMorePackets = .ok d := by
  rw [radioComRxAvailable]
  cases c.receiveMorePackets <;> simp [Except.map]

theorem radioComRxControlSignals_ok (c : Com) : (∃ r, c.radioComRxControlSignals = .ok r) ↔
    ∃ d, c.receiveMorePackets = .ok d := by
  rw [radioComRxControlSignals]
  cases c.receiveMorePackets <;> simp [Except.map]

theorem receiveMorePackets_of_skip (h : c.rxBytesLeft ≠ 0 ∨ c.waitingToReportRxSignals = true) :
    c.receiveMorePackets = .ok c := by
  rw [receiveMorePackets]
  split_ifs with hleft hwait
  · rfl
  · rfl
  · exact absurd h (not_or.mpr ⟨hleft, hwait⟩)

theorem receiveMorePackets_outcome (h : c.link.RingContent) : ∃ qs,
    (∀ d, c.receiveMorePackets = .ok d ∨ c.receiveMorePackets = .error d →
      d.link.accepted = c.link.accepted ++ qs) ∧
    (c.interrupts = [] → qs = []) ∧
    ((∃ d, c.receiveMorePackets = .ok d) ↔ c.Readable qs) ∧
    (c.ReceiveEnds ↔ c.Readable qs) ∧
    (¬ c.Readable qs → ∀ k, ∃ d, c.receiveLoop k = .error d) := by
  by_cases hskip : c.rxBytesLeft ≠ 0 ∨ c.waitingToReportRxSignals = true
  · have hr : c.Readable [] := hskip.imp_right .inl
    rw [receiveMorePackets_of_skip hskip]
    refine ⟨[], fun d hd => ?_, fun _ => rfl, iff_of_true ⟨c, rfl⟩ hr,
      iff_of_true (hskip.imp_right .inl) hr, absurd hr⟩
    obtain rfl := Except.ok.inj (hd.resolve_right nofun)
    exact (List.append_nil _).symm
  · obtain ⟨hleft, hwait⟩ := not_or.mp hskip
    obtain ⟨qs, ho⟩ := Polling.outcome ⟨h, not_not.mp hleft, Bool.eq_false_iff.mpr hwait⟩
      (enough_receiveMorePackets h)
    have hloop : c.receiveMorePackets = c.receiveLoop (c.interrupts.length + rxPacketCount) := by
      rw [receiveMorePackets, if_neg hleft, if_neg hwait]
    have hreadable : c.Readable qs ↔ ∀ p ∈ c.news qs, p.payloadType ≤ payloadTypeControlSignals :=
      (or_iff_right hleft).trans (or_iff_right hwait)
    have hends : c.ReceiveEnds ↔ c.LoopEnds := (or_iff_right hleft).trans (or_iff_right hwait)
    refine ⟨qs, ?_⟩
    rw [hloop, hreadable, hends]
    exact ⟨ho.accepted, ho.quiet, ho.returns, ho.ends, ho.diverges⟩

/-- The calls return exactly if the first packet that is not redundant, among those in the ring and
the packets `qs` that are accepted while the loop runs, is of a known type. Otherwise the loop never
ends. -/
theorem receiveMorePackets_returns_iff (h : c.link.RingContent) : ∃ qs,
    (∀ d, c.receiveMorePackets = .ok d ∨ c.receiveMorePackets = .error d →
      d.link.accepted = c.link.accepted ++ qs) ∧
    (c.interrupts = [] → qs = []) ∧
    ((∃ r, c.radioComRxAvailable = .ok r) ↔ c.Readable qs) ∧
    ((∃ r, c.radioComRxControlSignals = .ok r) ↔ c.Readable qs) ∧
    (c.ReceiveEnds ↔ c.Readable qs) ∧
    (¬ c.Readable qs → ∀ fuel, ∃ d, c.receiveLoop fuel = .error d) := by
  obtain ⟨qs, haccepted, hquiet, hreturns, hends, hdiverges⟩ := receiveMorePackets_outcome h
  exact ⟨qs, haccepted, hquiet, (radioComRxAvailable_ok c).trans hreturns,
    (radioComRxControlSignals_ok c).trans hreturns, hends, hdiverges⟩

/-- A peer has sent one packet of type 2. -/
def unknownType : Com :=
  { ((powerUp false).radioComInit 128) with
    link := (startListening ++ receiveFrame [2, 4, 7]).foldl Node.interrupt
      ((powerUp false).radioComInit 128).link
    passed := ((powerUp false).radioComInit 128).link.visits
      (startListening ++ receiveFrame [2, 4, 7]) }

theorem inbox_unknownType : unknownType.link.view.inbox = [⟨2, [7]⟩] := by decide +kernel

theorem ringContent_unknownType : unknownType.link.RingContent where
  serviceable := ((Node.serviceable_radioLinkInit 128).interrupts _).2
  data p hp := by
    rw [inbox_unknownType, List.mem_singleton] at hp
    rw [hp]
    exact List.cons_ne_nil _ _

theorem receiveMorePackets_unknownType :
    ¬ unknownType.Readable [] ∧ ∀ fuel, ∃ d, unknownType.receiveLoop fuel = .error d := by
  obtain ⟨qs, -, hquiet, -, -, -, hdiverges⟩ :=
    receiveMorePackets_returns_iff ringContent_unknownType
  obtain rfl := hquiet rfl
  have hnot : ¬ unknownType.Readable [] := by
    rintro (hleft | hwait | hnews)
    · exact hleft rfl
    · cases hwait
    · have htype := hnews ⟨2, [7]⟩ (by rw [news, inbox_unknownType]; rfl)
      revert htype
      decide
  exact ⟨hnot, hdiverges hnot⟩

/-- The link accepts the packet, and then the call does not return. -/
theorem radioComRxAvailable_unknownType : ∃ h,
    Run Host.step Host.ReceiveRule (Host.init false 128) h ∧ h.com.link.RingContent ∧
    h.com.interrupts = [] ∧ ¬ h.com.ReceiveEnds ∧
    ∀ fuel, ∃ d, h.com.receiveLoop fuel = .error d := by
  have hpolling : unknownType.Polling := ⟨ringContent_unknownType, rfl, rfl⟩
  refine ⟨⟨unknownType, []⟩, .single ⟨.interrupts _, trivial, rfl⟩, ringContent_unknownType, rfl,
    ?_, fun fuel => ?_⟩
  · rintro (hleft | hwait | hends)
    · exact hleft rfl
    · cases hwait
    · exact hpolling.not_loopEnds inbox_unknownType (by decide) hends
  · obtain ⟨d, -, hd, -⟩ := hpolling.diverges inbox_unknownType (by decide) fuel
    exact ⟨d, hd⟩

end Com
end WixelSdk.RadioCom
