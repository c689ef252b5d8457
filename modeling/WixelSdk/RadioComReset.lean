import WixelSdk.RadioComTx

/-!
# A reset of the peer is answered with the control signals

The interrupt sets radioLinkResetPacketReceived at any time, and the main loop turns it into
sendSignalsSoon and later into a packet. `Relays c d` says that no request got lost on the way from
`c` to `d`, whatever the interrupts between them did. It is transitive, and each part of each function
has it.
-/

namespace WixelSdk.RadioCom
open RadioMac RadioLink Transition

def SendsSignals : LinkEvent → Prop
  | .queued _ _ p => p.payloadType = payloadTypeControlSignals
  | _ => False

/-- A reset frame was received, and no control signals have been queued since then. -/
def Unanswered (history : List LinkEvent) : Prop :=
  ∃ es es', history = es ++ .resetReceived :: es' ∧ ∀ e ∈ es', ¬ SendsSignals e

def Carries (history : List LinkEvent) (controlSignals : UInt8) : Prop :=
  ∃ b a, .queued b a ⟨payloadTypeControlSignals, [controlSignals]⟩ ∈ history

variable {es es' : List LinkEvent} {v : UInt8}

theorem Unanswered.resetReceived_mem (h : Unanswered es) : .resetReceived ∈ es := by
  obtain ⟨xs, ys, rfl, -⟩ := h
  exact List.mem_append_right _ List.mem_cons_self

theorem Unanswered.of_append (h : Unanswered (es ++ es')) :
    (Unanswered es ∧ ∀ e ∈ es', ¬ SendsSignals e) ∨ Unanswered es' := by
  obtain ⟨xs, ys, hsplit, hys⟩ := h
  rcases List.append_eq_append_iff.mp hsplit with ⟨as, -, he⟩ | ⟨bs, he, hbs⟩
  · exact Or.inr ⟨as, ys, he, hys⟩
  · cases bs with
    | nil => exact Or.inr ⟨[], ys, hbs.symm, hys⟩
    | cons b bs =>
        obtain ⟨rfl, rfl⟩ := List.cons.inj hbs
        refine Or.inl ⟨⟨xs, bs, he, fun e hm => hys e ?_⟩, fun e hm => hys e ?_⟩
        · exact List.mem_append_left _ hm
        · exact List.mem_append_right _ hm

theorem Carries.append_left (h : Carries es v) (es' : List LinkEvent) : Carries (es ++ es') v := by
  obtain ⟨b, a, hmem⟩ := h
  exact ⟨b, a, List.mem_append_left _ hmem⟩

theorem Carries.append_right (h : Carries es' v) (es : List LinkEvent) : Carries (es ++ es') v := by
  obtain ⟨b, a, hmem⟩ := h
  exact ⟨b, a, List.mem_append_right _ hmem⟩

theorem Carries.exists_sendsSignals (h : Carries es v) : ∃ e ∈ es, SendsSignals e := by
  obtain ⟨b, a, hmem⟩ := h
  exact ⟨_, hmem, rfl⟩

namespace Com

/-- Control signals are requested, by the interrupt or by the main loop. -/
def Waiting (c : Com) : Prop :=
  c.link.radioLinkResetPacketReceived = true ∨ c.sendSignalsSoon = true

structure Relays (c d : Com) : Prop where
  serviceable : d.link.Serviceable
  radioComTxSignals : d.radioComTxSignals = c.radioComTxSignals
  events : ∃ es, d.link.history = c.link.history ++ es ∧ (Unanswered es → d.Waiting) ∧
    (c.link.radioLinkResetPacketReceived = true → d.Waiting ∨ Carries es c.radioComTxSignals) ∧
    (c.sendSignalsSoon = true → d.sendSignalsSoon = true ∨ Carries es c.radioComTxSignals)

variable {c d e : Com}

theorem Relays.trans (h : Relays c d) (h' : Relays d e) : Relays c e := by
  obtain ⟨es, hes, hun, hflag, hsoon⟩ := h.events
  obtain ⟨es', hes', hun', hflag', hsoon'⟩ := h'.events
  rw [h.radioComTxSignals] at hflag' hsoon'
  have hwait : d.Waiting → e.Waiting ∨ Carries es' c.radioComTxSignals := fun hw =>
    hw.elim hflag' fun hs => (hsoon' hs).imp_left Or.inr
  refine ⟨h'.serviceable, h'.radioComTxSignals.trans h.radioComTxSignals, es ++ es', ?_, ?_, ?_, ?_⟩
  · rw [hes', hes, List.append_assoc]
  · intro hu
    rcases hu.of_append with ⟨hu, hnone⟩ | hu
    · refine (hwait (hun hu)).resolve_right fun hc => ?_
      obtain ⟨e, hmem, he⟩ := hc.exists_sendsSignals
      exact hnone e hmem he
    · exact hun' hu
  · intro hf
    rcases hflag hf with hw | hc
    · exact (hwait hw).imp_right fun hc => hc.append_right es
    · exact Or.inr (hc.append_left es')
  · intro hs
    rcases hsoon hs with hs | hc
    · exact (hsoon' hs).imp_right fun hc => hc.append_right es
    · exact Or.inr (hc.append_left es')

/-- A part that neither receives a reset frame nor queues control signals. -/
theorem Relays.of_events (hs : d.link.Serviceable)
    (hsignals : d.radioComTxSignals = c.radioComTxSignals)
    (hes : ∃ es, d.link.history = c.link.history ++ es ∧ .resetReceived ∉ es)
    (hflag : d.link.radioLinkResetPacketReceived = c.link.radioLinkResetPacketReceived)
    (hsoon : d.sendSignalsSoon = c.sendSignalsSoon) : Relays c d := by
  obtain ⟨es, hes, hmem⟩ := hes
  refine ⟨hs, hsignals, es, hes, fun hu => absurd hu.resetReceived_mem hmem, fun hf => ?_,
    fun hf => Or.inl (hsoon.trans hf)⟩
  exact Or.inl (Or.inl (hflag.trans hf))

/-- A part that does nothing on the link. -/
theorem Relays.of_silent (hs : d.link.Serviceable)
    (hsignals : d.radioComTxSignals = c.radioComTxSignals)
    (hhistory : d.link.history = c.link.history)
    (hflag : d.link.radioLinkResetPacketReceived = c.link.radioLinkResetPacketReceived)
    (hsoon : d.sendSignalsSoon = c.sendSignalsSoon) : Relays c d :=
  .of_events hs hsignals ⟨[], by simp [hhistory], by simp⟩ hflag hsoon

theorem Relays.refl (h : c.link.Serviceable) : Relays c c := .of_silent h rfl rfl rfl rfl

theorem Relays.of_serves {n : Node} (h : Node.Serves c.link n) (hs : n.Serviceable)
    (is : List (List Irq)) (ps : List (Node × Irq)) :
    Relays c { c with link := n, interrupts := is, passed := ps } := by
  obtain ⟨es, hes, -, hflag, -⟩ := h.events
  refine ⟨hs, rfl, es, hes, fun hu => ?_, fun hf => ?_, Or.inl⟩
  · exact Or.inl (hflag.mpr (Or.inr hu.resetReceived_mem))
  · exact Or.inl (Or.inl (hflag.mpr (Or.inl hf)))

theorem relays_interrupt (h : c.link.Serviceable) : Relays c c.interrupt :=
  .of_serves (serves_interrupt h).1 (serves_interrupt h).2 _ _

theorem relays_schedule (h : c.link.Serviceable) (is : List (List Irq)) :
    Relays c (c.schedule is) := .of_silent h rfl rfl rfl rfl

/-- The flag is cleared before sendSignalsSoon is set, so that a reset frame that comes in between
sets it again. -/
theorem relays_noticeReset (h : c.link.Serviceable) : Relays c c.noticeReset := by
  unfold noticeReset
  split_ifs
  · obtain ⟨hserves, hs⟩ := serves_interrupt h
    obtain ⟨hserves', hs'⟩ := serves_interrupt (serviceable_clearResetPacketReceived hs)
    obtain ⟨es, hes, -⟩ := hserves.events
    obtain ⟨es', hes', -⟩ := hserves'.events
    refine ⟨hs', rfl, es ++ es', ?_, fun _ => Or.inr rfl, fun _ => Or.inl (Or.inr rfl),
      fun _ => Or.inl rfl⟩
    rw [← List.append_assoc, ← hes]
    exact hes'
  · exact relays_interrupt h

theorem linkRule_relays (c : Com) : LinkRule (Relays c) where
  interrupt _ h := h.trans (relays_interrupt h.serviceable)
  store _ _ _ _ h := h.trans (.of_silent (h.serviceable.storeTx _ _ _) rfl rfl rfl rfl)
  advance _ h := h.trans
    (.of_events h.serviceable.advanceTxMainLoopIndex rfl ⟨[_], rfl, by simp⟩ rfl rfl)
  strobe _ h := h.trans (.of_silent h.serviceable.radioMacStrobe rfl rfl rfl rfl)
  loaded _ _ h := h.trans (.of_silent h.serviceable rfl rfl rfl rfl)
  pointers _ _ _ h := h.trans (.of_silent h.serviceable rfl rfl rfl rfl)

theorem relays_radioComSendControlSignalsNow (h : c.link.Serviceable)
    (hfree : c.link.radioLinkTxQueued < 15) : Relays c c.radioComSendControlSignalsNow := by
  have hq := queues_radioComSendControlSignalsNow h hfree
  obtain ⟨es, b, es', hhist, -, -, -, hflag⟩ := hq.history
  have hcarries : Carries (es ++ .queued b (b + 1)
      ⟨payloadTypeControlSignals, [c.radioComTxSignals]⟩ :: es') c.radioComTxSignals :=
    Carries.append_right ⟨_, _, List.mem_cons_self⟩ es
  refine ⟨hq.serviceable, hq.radioComTxSignals, _, hhist, fun hu => ?_, fun _ => Or.inr hcarries,
    fun _ => Or.inr hcarries⟩
  -- a reset frame that came before the packet has been answered by it
  rcases hu.of_append with ⟨-, hnone⟩ | hu
  · exact absurd rfl (hnone _ List.mem_cons_self)
  · refine Or.inl (hflag ?_)
    exact (List.mem_cons.mp hu.resetReceived_mem).resolve_left (by simp)

theorem txRule_relays (c : Com) : TxRule (Relays c) where
  serviceable _ h := h.serviceable
  interrupt _ h := h.trans (relays_interrupt h.serviceable)
  notice _ h := h.trans (relays_noticeReset h.serviceable)
  data _ h _ := (linkRule_relays c).radioComSendDataNow h
  signals _ h _ hfree := h.trans (relays_radioComSendControlSignalsNow h.serviceable hfree)

theorem rxParts_relays (c : Com) : RxParts (Relays c) where
  interrupt _ h := h.trans (relays_interrupt h.serviceable)
  load _ _ h := h.trans (.of_silent h.serviceable rfl rfl rfl rfl)
  note _ _ h := h.trans (.of_silent h.serviceable rfl rfl rfl rfl)
  done _ h := h.trans
    (.of_events h.serviceable.radioLinkRxDoneWithPacket rfl ⟨[_], rfl, by simp⟩ rfl rfl)
  advance _ h := h.trans (.of_silent h.serviceable rfl rfl rfl rfl)

theorem relays_radioComTxControlSignals (h : c.link.Serviceable) (v : UInt8) :
    ∃ d, d.link = c.link ∧ (c.sendSignalsSoon = true → d.sendSignalsSoon = true) ∧
      Relays d (c.radioComTxControlSignals v) := by
  unfold Com.radioComTxControlSignals
  split_ifs
  · exact ⟨c.requestSignals v, rfl, fun _ => rfl, (txRule_relays _).radioComTxService (.refl h)⟩
  · exact ⟨c, rfl, id, .refl h⟩

end Com

namespace Host

variable {h t : Host} {a : HostAction}

/-- What one call, or the interrupts between two calls, do to the requests. -/
def Keeps (h t : Host) : Prop :=
  ∃ es, t.com.link.history = h.com.link.history ++ es ∧ (Unanswered es → t.com.Waiting) ∧
    (h.com.link.radioLinkResetPacketReceived = true →
      t.com.Waiting ∨ Carries es t.com.radioComTxSignals) ∧
    (h.com.sendSignalsSoon = true →
      t.com.sendSignalsSoon = true ∨ Carries es t.com.radioComTxSignals)

theorem keeps_of_relays {c : Com} (hlink : c.link = h.com.link)
    (hsoon : h.com.sendSignalsSoon = true → c.sendSignalsSoon = true) (hr : Com.Relays c t.com) :
    t.com.link.Serviceable ∧ Keeps h t := by
  obtain ⟨es, hes, hun, hflag, hsoon'⟩ := hr.events
  rw [hlink] at hes hflag
  rw [← hr.radioComTxSignals] at hflag hsoon'
  exact ⟨hr.serviceable, es, hes, hun, hflag, fun hs => hsoon' (hsoon hs)⟩

theorem keeps_step (hs : h.com.link.Serviceable) (ht : h.step a = some t) :
    t.com.link.Serviceable ∧ Keeps h t := by
  have hsched : ∀ is, Com.Relays h.com (h.com.schedule is) := Com.relays_schedule hs
  have hrx := Com.rxParts_relays h.com
  have hrelays : Com.Relays h.com t.com → t.com.link.Serviceable ∧ Keeps h t :=
    keeps_of_relays rfl id
  cases a with
  | interrupts is =>
      obtain rfl := Option.some.inj ht
      exact hrelays (.of_serves (hs.interrupts is).1 (hs.interrupts is).2 _ _)
  | txService is =>
      obtain rfl := Option.some.inj ht
      exact hrelays ((Com.txRule_relays h.com).radioComTxService (hsched is))
  | txAvailable =>
      obtain rfl := Option.some.inj ht
      exact hrelays (.refl hs)
  | txSendByte byte is =>
      obtain rfl := Option.some.inj ht
      exact hrelays ((Com.linkRule_relays h.com).radioComTxSendByte (hsched is) byte)
  | txControlSignals v is =>
      obtain rfl := Option.some.inj ht
      obtain ⟨d, hlink, hsoon, hd⟩ :=
        Com.relays_radioComTxControlSignals (hsched is).serviceable v
      exact keeps_of_relays hlink hsoon hd
  | rxAvailable is =>
      obtain ⟨d, hd, rfl⟩ := step_rxAvailable ht
      exact hrelays (hrx.rxRule.receiveMorePackets (hsched is) hd)
  | rxReceiveByte is =>
      obtain rfl := Option.some.inj ht
      exact hrelays (hrx.radioComRxReceiveByte (hsched is))
  | rxControlSignals is =>
      obtain ⟨d, hd, rfl⟩ := step_rxControlSignals ht
      have hrelays' := hrx.rxRule.receiveMorePackets (hsched is) hd
      exact hrelays (hrelays'.trans (.of_silent hrelays'.serviceable rfl rfl rfl rfl))
  | changeChannel channel =>
      obtain rfl := Option.some.inj ht
      exact hrelays (.of_silent (hs.radioLinkChangeChannel channel) rfl rfl rfl rfl)

/-- A reset of the peer is followed by control signals, and no request for them is forgotten. -/
theorem reset_is_answered {enforce : Bool} {channel : UInt8}
    (hr : Run step (fun _ _ => True) (init enforce channel) h) :
    (Unanswered h.com.link.history → h.com.Waiting) ∧ ∀ a t, h.step a = some t → Keeps h t := by
  have hinv : h.com.link.Serviceable ∧ (Unanswered h.com.link.history → h.com.Waiting) := by
    refine Run.invariant (I := fun h : Host => h.com.link.Serviceable ∧
      (Unanswered h.com.link.history → h.com.Waiting)) hr
      ⟨Node.serviceable_radioLinkInit channel, fun hu => ?_⟩ fun h a t ⟨hs, hw⟩ _ ht => ?_
    · cases hu.resetReceived_mem
    · obtain ⟨hs', es, hes, hun, hflag, hsoon⟩ := keeps_step hs ht
      refine ⟨hs', fun hu => ?_⟩
      rw [hes] at hu
      rcases hu.of_append with ⟨hu, hnone⟩ | hu
      · have hnot : ¬ Carries es t.com.radioComTxSignals := fun hc => by
          obtain ⟨e, hmem, he⟩ := hc.exists_sendsSignals
          exact hnone e hmem he
        rcases hw hu with hf | hs
        · exact (hflag hf).resolve_right hnot
        · exact Or.inr ((hsoon hs).resolve_right hnot)
      · exact hun hu
  exact ⟨hinv.2, fun a t ht => (keeps_step hinv.1 ht).2⟩

theorem reset_is_answered_after_signals : ∃ h : Host,
    (h.com.link.sent = [⟨1, [3]⟩] ∧ h.com.link.radioLinkResetPacketReceived = true) ∧
    (Unanswered h.com.link.history → h.com.Waiting) ∧ ∀ a t, h.step a = some t → Keeps h t := by
  have hrun : (exec step (fun _ _ => True) (init false 128)
      [.txControlSignals 3 [],
        .interrupts (startListening ++ receiveFrame [1, packetType .reset])]).map
      (fun h => (h.com.link.sent, h.com.link.radioLinkResetPacketReceived)) =
      some ([⟨1, [3]⟩], true) := by decide +kernel
  obtain ⟨h, hr, hobs⟩ := exists_run_of_exec hrun
  exact ⟨h, Prod.mk.inj hobs, reset_is_answered hr⟩

end Host
end WixelSdk.RadioCom
