import WixelSdk.RadioQueueStation

/-!
# The radio queue is never left asleep

Here the RF interrupt runs as a whole, under any combination of its flags and of the registers that
it tests. Every branch of the handler ends by transmitting or by listening with a timeout while
something is queued; a postponed strobe stays set. The main loop is excused only between the index
update of `radioQueueTxSendPacket` and its `radioMacStrobe`.

`observer` is the same code under the same MAC layer, with a note of every run of the handler: the
main-loop index that it saw, and whether the strobe bit was still set when it returned.
-/

namespace WixelSdk.RadioQueue
open RadioMac Transition

namespace Queue

/-- The radio will report an event by itself or the interrupt is about to run. -/
def Awake (q : Queue) : Prop :=
  q.mac.radioMacState = .tx ∨ q.mac.ListensWithTimeout ∨ q.mac.strobe = true

/-- The handler has chosen to transmit or to listen with a timeout, unless nothing is queued. -/
def Served (q : Queue) : Prop :=
  q.mac.radioMacState = .tx ∨ q.mac.ListensWithTimeout ∨
    q.radioQueueTxInterruptIndex = q.radioQueueTxMainLoopIndex

variable {q : Queue}

theorem indices_ne_of_queued (h : 0 < q.radioQueueTxQueued) :
    q.radioQueueTxInterruptIndex ≠ q.radioQueueTxMainLoopIndex := by
  intro he
  simp [radioQueueTxQueued, he] at h

theorem Served.awake (h : q.Served) (hq : 0 < q.radioQueueTxQueued) : q.Awake := by
  rcases h with htx | hrx | he
  · exact Or.inl htx
  · exact Or.inr (Or.inl hrx)
  · exact absurd he (indices_ne_of_queued hq)

theorem listens_radioMacRx (q : Queue) (p : Buffer) (random : UInt8) :
    (q.radioMacRx p (randomTxDelay random)).mac.ListensWithTimeout := by
  have h : randomTxDelay random ≠ 0 := by
    unfold randomTxDelay
    omega
  simp [radioMacRx, Mac.radioMacRx, Mac.ListensWithTimeout, h]

theorem served_takeInitiative (q : Queue) : q.takeInitiative.Served := by
  by_cases hne : q.radioQueueTxInterruptIndex ≠ q.radioQueueTxMainLoopIndex
  · rw [takeInitiative, if_pos hne]
    exact Or.inl rfl
  · rw [takeInitiative, if_neg hne]
    exact Or.inr (Or.inr (not_not.mp hne))

theorem served_handleBadCrc (q : Queue) (random : UInt8) : (q.handleBadCrc random).Served := by
  by_cases hne : q.radioQueueTxInterruptIndex ≠ q.radioQueueTxMainLoopIndex
  · rw [handleBadCrc, if_pos hne]
    exact Or.inr (Or.inl (q.listens_radioMacRx _ random))
  · rw [handleBadCrc, if_neg hne]
    exact Or.inr (Or.inr (not_not.mp hne))

theorem served_radioMacEventHandler (q : Queue) (r : Readings) (e : MacEvent) :
    (radioMacEventHandler r e q).Served := by
  cases e with
  | tx => exact Or.inr (Or.inl (listens_radioMacRx _ _ r.random))
  | rx =>
      by_cases hcrc : q.radioQueueAllowCrcErrors = false ∧ r.crcPassed = false
      · rw [radioMacEventHandler, handleRx, if_pos hcrc]
        exact served_handleBadCrc q r.random
      · rw [radioMacEventHandler, handleRx, if_neg hcrc]
        exact served_takeInitiative _
  | rxTimeout => exact served_takeInitiative q
  | strobe => exact served_takeInitiative q

theorem served_radioMacEvent (q : Queue) (r : Readings) (e : MacEvent) :
    (q.radioMacEvent r e).Served := served_radioMacEventHandler q.beforeHandler r e

/-- The handler chooses a radio mode and advances its own indices, and that is all. -/
theorem radioMacEventHandler_frame {β : Type} {f : Queue → β} (q : Queue) (r : Readings)
    (e : MacEvent) (hrx : ∀ q p timeout, f (q.radioMacRx p timeout) = f q)
    (htx : ∀ q p, f (q.radioMacTx p) = f q)
    (hindices : ∀ q i j, f { q with
      radioQueueTxInterruptIndex := i, radioQueueRxInterruptIndex := j } = f q) :
    f (radioMacEventHandler r e q) = f q := by
  have hinit : ∀ q : Queue, f q.takeInitiative = f q := by
    intro q
    unfold takeInitiative
    split_ifs
    · exact htx _ _
    · exact hrx _ _ _
  have hoffer : f q.offerPacket = f q := by
    unfold offerPacket
    split_ifs
    · exact hindices q q.radioQueueTxInterruptIndex _
    · rfl
  cases e with
  | tx => exact (hrx _ _ _).trans (hindices q _ q.radioQueueRxInterruptIndex)
  | rx =>
      change f (q.handleRx r) = f q
      unfold handleRx handleBadCrc
      split_ifs
      · exact hrx _ _ _
      · exact hrx _ _ _
      · exact (hinit _).trans hoffer
  | rxTimeout => exact hinit q
  | strobe => exact hinit q

/-- Only the MAC layer clears the strobe bit. -/
theorem radioMacEventHandler_strobe (q : Queue) (r : Readings) (e : MacEvent) :
    (radioMacEventHandler r e q).mac.strobe = q.mac.strobe :=
  radioMacEventHandler_frame (f := fun q => q.mac.strobe) q r e (fun _ _ _ => rfl)
    (fun _ _ => rfl) (fun _ _ _ => rfl)

theorem radioMacEventHandler_txMain (q : Queue) (r : Readings) (e : MacEvent) :
    (radioMacEventHandler r e q).radioQueueTxMainLoopIndex = q.radioQueueTxMainLoopIndex :=
  radioMacEventHandler_frame (f := radioQueueTxMainLoopIndex) q r e (fun _ _ _ => rfl)
    (fun _ _ => rfl) (fun _ _ _ => rfl)

/-! ### What the handler sees -/

/-- One run of the handler: the main-loop index that it saw, and the strobe bit at its end. -/
structure HandlerRun where
  radioQueueTxMainLoopIndex : ℕ
  strobe : Bool
  deriving DecidableEq

def observer : Client (Queue × List HandlerRun) Buffer where
  mac s := s.1.mac
  setMac m s := (client.setMac m s.1, s.2)
  radioMacEventHandler r e s :=
    let q := radioMacEventHandler r e s.1
    (q, s.2 ++ [⟨s.1.radioQueueTxMainLoopIndex, q.mac.strobe⟩])

def handlerRuns (q : Queue) (h : RfReadings) : List HandlerRun := (observer.isrRf h (q, [])).2

/-- Observing the handler changes nothing. -/
theorem observer_isrRf (q : Queue) (h : RfReadings) :
    (observer.isrRf h (q, [])).1 = q.isrRf h :=
  observer.isrRf_map (d := client) (π := Prod.fst) (fun _ => rfl) (fun _ _ => rfl)
    (fun _ _ _ => rfl) h (q, [])

/-- Until the handler has seen the queue the strobe bit stays set. -/
theorem strobe_or_seen {s : Queue × List HandlerRun} {i : ℕ} (h : RfReadings)
    (hi : s.1.radioQueueTxMainLoopIndex = i)
    (hs : s.1.mac.strobe = true ∨ ⟨i, true⟩ ∈ s.2) :
    (observer.isrRf h s).1.mac.strobe = true ∨ ⟨i, true⟩ ∈ (observer.isrRf h s).2 := by
  have hall := observer.isrRf_preserves h (P := fun s => s.1.radioQueueTxMainLoopIndex = i ∧
    (s.1.mac.strobe = true ∨ ⟨i, true⟩ ∈ s.2)) (s := s) ?_ ?_ ⟨hi, hs⟩
  · exact hall.2
  · rintro e ⟨q, runs⟩ ⟨hmain, hseen⟩ -
    have hmain' := radioMacEventHandler_txMain q.beforeHandler h.readings e
    have hstrobe := radioMacEventHandler_strobe q.beforeHandler h.readings e
    refine ⟨hmain'.trans hmain, Or.inr ?_⟩
    rcases hseen with hset | hmem
    · apply List.mem_append_right
      have hrun : (⟨i, true⟩ : HandlerRun) = ⟨q.radioQueueTxMainLoopIndex,
          (radioMacEventHandler h.readings e q.beforeHandler).mac.strobe⟩ := by
        rw [hstrobe, ← hmain]
        exact congrArg _ hset.symm
      rw [hrun]
      exact List.mem_singleton_self _
    · exact List.mem_append_left _ hmem
  · exact fun _ hs => hs

end Queue

/-! ### Runs -/

structure Node where
  queue : Queue
  inSend : Bool

inductive NodeAction
  | call (c : Call)
  | dma (bytes : List UInt8)
  | isrRf (h : RfReadings)

namespace Node

variable {s t : Node} {a : NodeAction}

def init (param_radio_channel : UInt8) : Node where
  queue := Queue.powerUp.radioQueueInit param_radio_channel
  inSend := false

def step (s : Node) : NodeAction → Option Node
  | .call c => (c.place s.inSend).map fun b => ⟨s.queue.call c, b⟩
  | .dma bytes => some { s with queue := s.queue.dmaReceive bytes }
  | .isrRf h => some { s with queue := s.queue.isrRf h }

/-- Outside the RF interrupt and outside the gap in `radioQueueTxSendPacket`, a packet in the TX
queue is on its way. -/
def NeverAsleep (s : Node) : Prop :=
  s.inSend = false → 0 < s.queue.radioQueueTxQueued → s.queue.Awake

theorem awake_isrRf {q : Queue} (h : RfReadings) (hq : 0 < q.radioQueueTxQueued → q.Awake) :
    0 < (q.isrRf h).radioQueueTxQueued → (q.isrRf h).Awake := by
  apply Queue.client.isrRf_preserves (P := fun q => 0 < q.radioQueueTxQueued → q.Awake) h
  · intro e q _ _ hq
    exact (q.served_radioMacEvent h.readings e).awake hq
  · exact fun _ hq => hq
  · exact hq

theorem neverAsleep_call {c : Call} {b : Bool} (h : s.NeverAsleep)
    (hp : c.place s.inSend = some b) : NeverAsleep ⟨s.queue.call c, b⟩ := by
  intro hb hq
  subst hb
  cases c with
  | strobe => exact Or.inr (Or.inr rfl)
  | sendPacket =>
      simp only [Call.place] at hp
      split_ifs at hp
      cases hp
  | _ =>
      simp only [Call.place] at hp
      split_ifs at hp with hin
      exact h (Bool.eq_false_iff.mpr hin) hq

theorem neverAsleep_step (h : s.NeverAsleep) (hs : s.step a = some t) : t.NeverAsleep := by
  cases a with
  | call c =>
      obtain ⟨b, hp, rfl⟩ := Option.map_eq_some_iff.mp hs
      exact neverAsleep_call h hp
  | dma bytes =>
      obtain rfl := Option.some.inj hs
      intro hin hq
      have hold := h hin
      simp only [Queue.dmaReceive] at hq ⊢
      split at hq
      · rename_i p lenl vlen hst hdma
        cases p <;> exact hold hq
      · exact hold hq
  | isrRf f =>
      obtain rfl := Option.some.inj hs
      exact fun hin => awake_isrRf f (h hin)

/-- A step that clears the strobe bit is a run of the interrupt in which the handler has seen the
queue as it is, with the bit still set afterwards. -/
theorem cleared_after_handler (hs : s.step a = some t) (hset : s.queue.mac.strobe = true)
    (hclear : t.queue.mac.strobe = false) : ∃ h, a = .isrRf h ∧
      ⟨s.queue.radioQueueTxMainLoopIndex, true⟩ ∈ s.queue.handlerRuns h := by
  cases a with
  | call c =>
      obtain ⟨b, -, rfl⟩ := Option.map_eq_some_iff.mp hs
      have hkept : (s.queue.call c).mac.strobe = true := by
        cases c with
        | strobe => rfl
        | _ => exact hset
      rw [hkept] at hclear
      cases hclear
  | dma bytes =>
      obtain rfl := Option.some.inj hs
      have hkept : (s.queue.dmaReceive bytes).mac.strobe = true := by
        unfold Queue.dmaReceive
        split
        · rename_i p lenl vlen hst hdma
          cases p <;> exact hset
        · exact hset
      rw [hkept] at hclear
      cases hclear
  | isrRf h =>
      obtain rfl := Option.some.inj hs
      refine ⟨h, rfl, ?_⟩
      rcases Queue.strobe_or_seen h rfl (s := (s.queue, [])) (Or.inl hset) with hkept | hseen
      · rw [Queue.observer_isrRf] at hkept
        have hclear' : (s.queue.isrRf h).mac.strobe = false := hclear
        rw [hkept] at hclear'
        cases hclear'
      · exact hseen

/-- No wake-up is lost, under any interleaving of the main loop with the RF interrupt. -/
theorem no_lost_wakeup {channel : UInt8} (hr : Run step (fun _ _ => True) (init channel) s) :
    s.NeverAsleep ∧ ∀ a t, s.step a = some t → s.queue.mac.strobe = true →
      t.queue.mac.strobe = false → ∃ h, a = .isrRf h ∧
        ⟨s.queue.radioQueueTxMainLoopIndex, true⟩ ∈ s.queue.handlerRuns h := by
  have h : s.NeverAsleep := by
    refine Run.invariant hr ?_ fun _ _ _ h _ hs => neverAsleep_step h hs
    exact fun _ _ => Or.inr (Or.inr rfl)
  exact ⟨h, fun a t hs => cleared_after_handler hs⟩

/-- An interrupt with none of its flags set, and the radio neither receiving nor calibrating. -/
def quiet : RfReadings where
  readings := ⟨true, 0⟩
  irqDone := false
  irqTimeout := false
  marcstateRx := true
  sfd := false
  worevt1Low := false
  irqTxunf := false
  irqRxovf := false

/-- A packet is queued while the radio listens, and the next interrupt starts to transmit it. -/
theorem no_lost_wakeup_of_queued_packet : ∃ s, Run step (fun _ _ => True) (init 0) s ∧
    s.queue.radioQueueTxQueued = 1 ∧ s.queue.Awake ∧
    ⟨s.queue.radioQueueTxMainLoopIndex, true⟩ ∈ s.queue.handlerRuns quiet := by
  have hrun : (exec step (fun _ _ => True) (init 0)
      [.isrRf quiet, .call .sendPacket, .call .strobe]).map
      (fun s => (s.inSend, s.queue.radioQueueTxQueued, s.queue.mac.strobe,
        (s.queue.isrRf quiet).mac.strobe)) = some (false, 1, true, false) := by decide +kernel
  obtain ⟨s, hr, hs⟩ := exists_run_of_exec hrun
  simp only [Prod.mk.injEq] at hs
  obtain ⟨hin, hq, hset, hclear⟩ := hs
  obtain ⟨hawake, hcleared⟩ := no_lost_wakeup hr
  obtain ⟨h, he, hmem⟩ := hcleared (.isrRf quiet) _ rfl hset hclear
  obtain rfl := NodeAction.isrRf.inj he
  exact ⟨s, hr, hq, hawake hin (by omega), hmem⟩

end Node
end WixelSdk.RadioQueue
