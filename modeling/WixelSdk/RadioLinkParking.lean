import WixelSdk.RadioLinkStation
import Mathlib.Tactic.SplitIfs

/-!
# Whether the link keeps trying to send

A node that has something to send must transmit, or listen with a timeout, or have its strobe bit
set. Every branch of the handler sees to that except one: after a bad CRC only the TX queue is asked
for something to send, so that a node that is still sending a reset and has nothing queued listens
for ever.
-/

namespace WixelSdk.RadioLink
open RadioMac Transition

namespace Node

def HasSomethingToSend (n : Node) : Prop := n.sendingReset = true ∨ 0 < n.radioLinkTxQueued

/-- The radio will report an event by itself or the interrupt is about to run. -/
def Awake (n : Node) : Prop :=
  n.mac.radioMacState = .tx ∨ n.mac.ListensWithTimeout ∨ n.mac.strobe = true

instance (n : Node) : Decidable n.HasSomethingToSend := inferInstanceAs (Decidable (_ ∨ _))

instance (n : Node) : Decidable n.Awake :=
  inferInstanceAs (Decidable (_ ∨ (_ ∧ _) ∨ _))

variable {n : Node}

theorem indices_ne_of_queued (h : 0 < n.radioLinkTxQueued) :
    n.radioLinkTxInterruptIndex ≠ n.radioLinkTxMainLoopIndex := by
  intro he
  simp [radioLinkTxQueued, he] at h

/-- The handler has chosen to transmit or to listen with a timeout, unless nothing is to be sent. -/
def Served (n : Node) : Prop :=
  n.mac.radioMacState = .tx ∨ n.mac.ListensWithTimeout ∨ ¬ n.HasSomethingToSend

theorem served_takeInitiative (n : Node) : n.takeInitiative.Served := by
  unfold takeInitiative
  split_ifs with hres hne
  · exact Or.inl rfl
  · exact Or.inl rfl
  · refine Or.inr (Or.inr ?_)
    rintro (hres' | hq)
    · exact hres hres'
    · exact hne (indices_ne_of_queued hq)

theorem served_respond (n : Node) (k : StopAndWait.Kind) : (n.respond k).Served := by
  unfold respond
  split_ifs <;> exact Or.inl rfl

theorem served_handleGoodCrc (n : Node) : n.handleGoodCrc.Served := by
  unfold handleGoodCrc handleData
  split_ifs
  · exact Or.inl rfl
  · exact served_respond _ _
  · exact served_takeInitiative _

theorem randomTxDelay_ne_zero (n : Node) (random : UInt8) : n.randomTxDelay random ≠ 0 := by
  unfold randomTxDelay
  split_ifs <;> omega

theorem listens_radioMacRx (n : Node) (p : Buffer) {timeout : ℕ} (h : timeout ≠ 0) :
    (n.radioMacRx p timeout).mac.ListensWithTimeout := by
  simp [radioMacRx, Mac.radioMacRx, Mac.ListensWithTimeout, h]

theorem served_handleBadCrc (random : UInt8) (h : n.sendingReset = false ∨
    n.radioLinkTxInterruptIndex ≠ n.radioLinkTxMainLoopIndex) : (n.handleBadCrc random).Served := by
  unfold handleBadCrc
  split_ifs with hne
  · exact Or.inr (Or.inl (n.listens_radioMacRx _ (n.randomTxDelay_ne_zero random)))
  · refine Or.inr (Or.inr ?_)
    rintro (hres | hq)
    · have hres' : n.sendingReset = true := hres
      rcases h with h | h
      · rw [h] at hres'
        cases hres'
      · exact hne h
    · exact hne (indices_ne_of_queued hq)

/-- A frame with a bad CRC that finds a reset to send and an empty TX queue. -/
def Deafens (n : Node) (e : MacEvent) (r : Readings) : Prop :=
  e = .rx ∧ r.crcPassed = false ∧ n.sendingReset = true ∧
    n.radioLinkTxInterruptIndex = n.radioLinkTxMainLoopIndex

instance (e : MacEvent) (r : Readings) : Decidable (n.Deafens e r) :=
  inferInstanceAs (Decidable (_ ∧ _ ∧ _ ∧ _))

theorem served_radioMacEvent {e : MacEvent} {r : Readings} (h : ¬ n.Deafens e r) :
    (n.radioMacEvent r e).Served := by
  change (radioMacEventHandler r e n.beforeHandler).Served
  cases e with
  | tx => exact Or.inr (Or.inl (listens_radioMacRx _ _ (randomTxDelay_ne_zero _ _)))
  | rx =>
      simp only [radioMacEventHandler]
      split_ifs with hcrc
      · exact served_handleGoodCrc _
      · apply served_handleBadCrc
        by_contra hc
        simp only [not_or, not_not, Bool.not_eq_false] at hc
        exact h ⟨rfl, by simpa using hcrc, hc⟩
  | rxTimeout => exact served_takeInitiative _
  | strobe => exact served_takeInitiative _

theorem not_awake_of_deafens {e : MacEvent} {r : Readings} (h : n.Deafens e r) :
    ¬ (n.radioMacEvent r e).Awake ∧ (n.radioMacEvent r e).HasSomethingToSend := by
  obtain ⟨rfl, hcrc, hres, hq⟩ := h
  have he : n.radioMacEvent r .rx = client.setMac
      (n.beforeHandler.handleBadCrc r.random).mac.afterHandler
      (n.beforeHandler.handleBadCrc r.random) := by
    simp [radioMacEvent, Client.radioMacEvent, client, radioMacEventHandler, beforeHandler, hcrc]
  have hbad : n.beforeHandler.handleBadCrc r.random =
      n.beforeHandler.radioMacRx (.radioLinkRxPacket n.radioLinkRxInterruptIndex) 0 := by
    simp [handleBadCrc, beforeHandler, hq]
  rw [he, hbad]
  exact ⟨by simp [Awake, client, Mac.afterHandler, radioMacRx, Mac.radioMacRx,
    Mac.ListensWithTimeout], Or.inl hres⟩

end Node

namespace Station

/-- Outside the RF interrupt and outside the gap in `radioLinkTxSendPacket`, a node with something
to send is not left listening without a timeout and without a pending strobe. -/
def NeverParked (s : Station) : Prop :=
  s.inSend = false → s.node.HasSomethingToSend → s.node.Awake

instance (s : Station) : Decidable s.NeverParked := inferInstanceAs (Decidable (_ → _ → _))

/-- No frame with a bad CRC is handled while a reset is pending and the TX queue is empty. -/
def Hearing (s : Station) : Action → Prop
  | .event e r => s.inSend = true ∨ ¬ s.node.Deafens e r
  | _ => True

instance (s : Station) (a : Action) : Decidable (Hearing s a) := by
  rcases a with ⟨⟩ <;> dsimp only [Hearing] <;> infer_instance

variable {s t : Station} {a : Action}

theorem neverParked_step (h : s.NeverParked) (ha : s.Hearing a) (hs : s.step a = some t) :
    t.NeverParked := by
  intro hin hsend
  have hgap := inSend_of_step hs hin
  rw [step_node hs] at hsend ⊢
  by_cases hstrobe : a = .strobe
  · subst hstrobe
    exact Or.inr (Or.inr rfl)
  have hout : s.inSend = false := hgap.resolve_right hstrobe
  cases a with
  | storeTx offset b => exact h hout hsend
  | sendPacket ty =>
      simp only [step] at hs
      split_ifs at hs
      obtain rfl := Option.some.inj hs
      cases hin
  | strobe => exact absurd rfl hstrobe
  | rxDone => exact h hout hsend
  | txQueueReset =>
      apply h hout
      rcases hsend with hres | hq
      · exact Or.inl hres
      · exact absurd rfl (Node.indices_ne_of_queued hq)
  | changeChannel channel => exact Or.inr (Or.inr rfl)
  | dma bytes =>
      have hold := h hout
      simp only [act, Node.dmaReceive] at hsend ⊢
      split at hsend
      · rename_i p lenl vlen hst hdma
        cases p <;> exact hold hsend
      · exact hold hsend
  | event e r =>
      have hdeaf : ¬ s.node.Deafens e r := ha.resolve_left (Bool.eq_false_iff.mp hout)
      rcases Node.served_radioMacEvent hdeaf with htx | hrx | hnone
      · exact Or.inl htx
      · exact Or.inr (Or.inl hrx)
      · exact absurd hsend hnone
  | rfErrors f => exact h hout hsend

/-- The branch for a bad CRC is the only way to park. -/
theorem hearing_of_neverParked (hs : s.step a = some t) (ht : t.NeverParked) : s.Hearing a := by
  cases a with
  | event e r =>
      simp only [step] at hs
      split_ifs at hs
      obtain rfl := Option.some.inj hs
      by_contra hc
      simp only [Hearing, not_or, not_not, Bool.not_eq_true] at hc
      obtain ⟨hawake, hsend⟩ := Node.not_awake_of_deafens hc.2
      exact hawake (ht hc.1 hsend)
  | _ => trivial

/-- In a run that handles no bad CRC while a reset is pending and nothing is queued the node never
parks, and any next step keeps it so exactly when it is of that kind. -/
theorem never_parks {channel : UInt8} (hr : Run step Hearing (init channel) s) :
    s.NeverParked ∧ ∀ a t, s.step a = some t → (t.NeverParked ↔ Hearing s a) := by
  have h : s.NeverParked := by
    refine Run.invariant hr ?_ fun _ _ _ h ha hs => neverParked_step h ha hs
    exact fun _ _ => Or.inr (Or.inr rfl)
  exact ⟨h, fun a t hs => ⟨hearing_of_neverParked hs, fun ha => neverParked_step h ha hs⟩⟩

/-- The reset frame of a fresh node, followed by a frame with a bad CRC. -/
def badCrcAfterReset : List Action :=
  [.event .strobe ⟨true, 0⟩, .event .tx ⟨true, 0⟩, .event .rx ⟨false, 0⟩]

theorem parks_after_bad_crc :
    ¬ ∀ s, Run step (fun _ _ => True) (init 0) s → s.NeverParked := by
  intro hall
  have hrun : (exec step (fun _ _ => True) (init 0) badCrcAfterReset).map
      (fun s => decide s.NeverParked) = some false := by decide
  obtain ⟨s, hr, hs⟩ := exists_run_of_exec hrun
  exact of_decide_eq_false hs (hall s hr)

theorem never_parks_after_good_crc : ∃ s, Run step Hearing (init 0) s ∧
    s.node.sendingReset = true ∧ s.node.mac.ListensWithTimeout ∧ s.NeverParked := by
  have hrun : (exec step Hearing (init 0)
      [.event .strobe ⟨true, 0⟩, .event .tx ⟨true, 0⟩]).map
      (fun s => (s.node.sendingReset, s.node.mac.radioMacState, s.node.mac.mcsm2)) =
      some (true, .rx, 0) := by decide
  obtain ⟨s, hr, hs⟩ := exists_run_of_exec hrun
  simp only [Prod.mk.injEq] at hs
  exact ⟨s, hr, hs.1, ⟨hs.2.1, by simp [hs.2.2]⟩, (never_parks hr).1⟩

end Station
end WixelSdk.RadioLink
