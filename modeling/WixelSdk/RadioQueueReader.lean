import WixelSdk.RadioQueueOrder

/-!
# A main loop that reads packets

A program that only receives calls `radioQueueRxCurrentPacket`, reads the packet and gives it back
with `radioQueueRxDoneWithPacket`. Whatever the radio does meanwhile, the packet stays as it is until
it is given back, and the packets given back are the first ones of those that were received.
-/

namespace WixelSdk.RadioQueue
open RadioMac
open RadioLink (Buf)

def Queue.packet (q : Queue) : Option Buf := q.radioQueueRxCurrentPacket.map q.radioQueueRxPacket

/-- What the interrupt and the DMA channel do to the packets that the main loop is given. -/
structure Kept (s t : Station) : Prop where
  presented : t.history.presented = s.history.presented
  wanted : s.history.wanted <+: t.history.wanted

variable {s t : Station} {p : Buf}

theorem packet_eq_head {q : Queue} (hc : q.Consistent) : q.packet = q.rxPackets.head? :=
  Station.rxCurrentPacket_eq_head hc

theorem presented_observeEnd (q : Queue) (r : Readings) (e : MacEvent) :
    History.presented (Station.observeEnd q r e) = [] := by
  cases e with
  | strobe => unfold Station.observeEnd; cases q.transmitting <;> rfl
  | tx => unfold Station.observeEnd; cases q.transmitting <;> rfl
  | rx => unfold Station.observeEnd; cases q.receiving <;> rfl
  | rxTimeout => unfold Station.observeEnd; cases q.transmitting <;> rfl

theorem presented_observeStart (n : ℕ) (q : Queue) :
    History.presented (Station.observeStart n q) = [] := by
  unfold Station.observeStart
  cases q.transmitting <;> rfl

theorem kept_step {a : Action} (hcall : ∀ c, a ≠ .call c) (ht : s.step a = some t) : Kept s t := by
  cases a with
  | call c => exact absurd rfl (hcall c)
  | dma bytes =>
      obtain rfl := Option.some.inj ht
      exact ⟨rfl, List.prefix_rfl⟩
  | rfErrors h =>
      obtain rfl := Option.some.inj ht
      exact ⟨rfl, List.prefix_rfl⟩
  | event e r =>
      obtain ⟨-, he⟩ := Option.ite_none_right_eq_some.mp ht
      obtain rfl := Option.some.inj he
      refine ⟨?_, ?_⟩
      · simp only [Station.event, History.presented_append, presented_observeEnd,
          presented_observeStart, List.append_nil]
      · simp only [Station.event, History.wanted_append, List.append_assoc]
        exact List.prefix_append _ _

theorem Kept.packet (hk : Kept s t) (hs : Ordered s.queue s.history)
    (ht : Ordered t.queue t.history) (hp : s.queue.packet = some p) : t.queue.packet = some p := by
  rw [packet_eq_head hs.consistent] at hp
  rw [packet_eq_head ht.consistent]
  obtain ⟨more, hmore⟩ := hk.wanted
  have hrx : t.queue.rxPackets = s.queue.rxPackets ++ more := by
    have hwanted := ht.received
    rw [hk.presented, ← hmore, ← hs.received, List.append_assoc] at hwanted
    exact List.append_cancel_left hwanted
  rw [hrx, List.head?_append, hp]
  rfl

theorem packet_eq_some {q : Queue} (h : q.packet = some p) :
    q.radioQueueRxCurrentPacket ≠ none ∧
      q.radioQueueRxPacket q.radioQueueRxMainLoopIndex = p := by
  unfold Queue.packet Queue.radioQueueRxCurrentPacket at h
  unfold Queue.radioQueueRxCurrentPacket
  split_ifs at h ⊢
  · cases h
  · exact ⟨nofun, Option.some.inj h⟩

theorem rxDone_step (hs : Ordered s.queue s.history) (hp : s.queue.packet = some p)
    (ht : s.step (.call .rxDone) = some t) :
    Ordered t.queue t.history ∧ t.history.presented = s.history.presented ++ [p] := by
  obtain ⟨b, -, rfl⟩ := Option.map_eq_some_iff.mp ht
  obtain ⟨hne, hmain⟩ := packet_eq_some hp
  refine ⟨hs.call (c := .rxDone) hne, ?_⟩
  change History.presented (s.history ++ Station.observeCall s.queue .rxDone) = _
  rw [History.presented_append, ← hmain]
  rfl

end WixelSdk.RadioQueue
