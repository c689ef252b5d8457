import WixelSdk.RadioComReceive

/-!
# Changing the channel

`radioLinkChangeChannel` empties the RX ring, but the byte stream layer does not learn of it. If no
packet is partly read, nothing is left of what was accepted before, and the receive side goes on with
what is accepted afterwards. If one is, its last byte releases a buffer that the main loop does not
own, and the whole ring is read again.
-/

namespace WixelSdk.RadioCom
open RadioMac RadioLink Transition InBand

namespace Host

variable {g h t : Host} {a : HostAction} {channel : UInt8}

/-- The channel is not changed while a packet is partly read. -/
def BetweenPackets (h : Host) : HostAction → Prop
  | .changeChannel _ => h.com.rxBytesLeft = 0
  | _ => True

instance (h : Host) (a : HostAction) : Decidable (BetweenPackets h a) := by
  rcases a with ⟨⟩ <;> dsimp only [BetweenPackets] <;> infer_instance

theorem Receiving.changeChannel (hr : Receiving h) (hleft : h.com.rxBytesLeft = 0)
    (ht : h.step (.changeChannel channel) = some t) :
    Receiving t ∧ t.com.unread = [] ∧ t.com.link.accepted = h.com.link.accepted ∧
      told t.log = told h.log := by
  obtain rfl := Option.some.inj ht
  have hin : (h.com.radioLinkChangeChannel channel).link.view.inbox = [] := Ring.contents_self _
  have htold : told (h.log ++ [.changeChannel channel]) = told h.log :=
    (told_append _ _).trans (List.append_nil _)
  refine ⟨⟨⟨hr.reading.serviceable.radioLinkChangeChannel channel, fun hl => absurd hleft hl,
    fun hl => absurd hleft hl, ?_, ?_, hr.reading.owned⟩, ?_⟩, ?_, rfl, htold⟩
  · change ∀ p ∈ (h.com.radioLinkChangeChannel channel).link.view.inbox, _
    rw [hin]
    exact nofun
  · change ∀ p ∈ (h.com.radioLinkChangeChannel channel).link.view.inbox, _
    rw [hin]
    exact nofun
  · exact Nat.le_trans (Nat.le_of_eq (rxAllowance_append _ _)) hr.allowance
  · exact (Com.unread_of_done (c := h.com.radioLinkChangeChannel channel) hleft).trans hin

/-- The run so far has kept the rules, and what has been told since `g` was accepted since `g`. -/
structure Fresh (g h : Host) : Prop where
  receiving : Receiving h
  accepted : g.com.link.accepted <+: h.com.link.accepted
  since : Since g.view h.view

theorem Fresh.step (hf : Fresh g h) (ha : ReceiveRule h a ∧ BetweenPackets h a)
    (ht : h.step a = some t) : Fresh g t := by
  by_cases hstay : StaysOnChannel a
  · have hp := hf.receiving.step ha.1 hstay ht
    exact ⟨hp.receiving, hf.accepted.trans hp.accepted, hf.since.of_moves hp.moves⟩
  · cases a with
    | changeChannel channel =>
        obtain ⟨hrec, hunread, haccepted, htold⟩ := hf.receiving.changeChannel ha.2 ht
        refine ⟨hrec, by rw [haccepted]; exact hf.accepted, hf.since.drop ?_ htold ?_⟩
        · exact congrArg items haccepted
        · exact congrArg items hunread
    | _ => exact absurd trivial hstay

theorem Fresh.bytes (hf : Fresh g h) : ∃ ps bytes,
    h.com.link.accepted = g.com.link.accepted ++ ps ∧
    data (told h.log) = data (told g.log) ++ bytes ∧ bytes.Sublist (dataBytes ps) := by
  obtain ⟨ps, hps⟩ := hf.accepted
  obtain ⟨arrived, new, hitems, hout, hsub⟩ := hf.since
  have harrived : items ps = arrived := by
    change items h.com.link.accepted = items g.com.link.accepted ++ arrived at hitems
    rw [← hps, items_append] at hitems
    exact List.append_cancel_left hitems
  refine ⟨ps, data new, hps.symm, ?_, ?_⟩
  · change told h.log = told g.log ++ new at hout
    rw [hout, data_append]
  · rw [← data_items, harrived]
    exact (List.sublist_append_left _ _).trans hsub

/-- Changing the channel between two packets keeps the receive side consistent: the main loop releases
only buffers that it owns, and every byte returned after a change is one of a packet accepted after
it. -/
theorem change_between_packets {enforce : Bool} {channel : UInt8}
    (hr : Run step (fun h a => ReceiveRule h a ∧ BetweenPackets h a) (init enforce channel) h) :
    (∀ k p, .released k p ∈ h.com.link.history → k ≠ 0) ∧
    ∀ channel' g t, BetweenPackets h (.changeChannel channel') →
      h.step (.changeChannel channel') = some g →
      Run step (fun h a => ReceiveRule h a ∧ BetweenPackets h a) g t →
      ∃ ps bytes, t.com.link.accepted = g.com.link.accepted ++ ps ∧
        data (told t.log) = data (told g.log) ++ bytes ∧ bytes.Sublist (dataBytes ps) := by
  have hinit : Fresh (init enforce channel) (init enforce channel) :=
    ⟨receiving_init enforce channel, List.prefix_rfl, .refl rfl⟩
  have hrec : Receiving h :=
    (Run.invariant hr hinit fun _ _ _ hf ha hs => hf.step ha hs).receiving
  refine ⟨hrec.reading.owned, fun channel' g t hbetween hg ht => ?_⟩
  obtain ⟨hrec', hunread, -, -⟩ := hrec.changeChannel hbetween hg
  have hfresh : Fresh g g := ⟨hrec', List.prefix_rfl, .refl (congrArg items hunread)⟩
  exact (Run.invariant ht hfresh fun _ _ _ hf ha hs => hf.step ha hs).bytes

theorem byte_after_a_change : ∃ g t : Host,
    (init false 128).step (.changeChannel 1) = some g ∧ told t.log = [.data 9] ∧
    (∀ k p, .released k p ∈ (init false 128).com.link.history → k ≠ 0) ∧
    ∃ ps bytes, t.com.link.accepted = g.com.link.accepted ++ ps ∧
      data (told t.log) = data (told g.log) ++ bytes ∧ bytes.Sublist (dataBytes ps) := by
  have hrun : (exec step (fun h a => ReceiveRule h a ∧ BetweenPackets h a)
      ((init false 128).returned ((init false 128).com.radioLinkChangeChannel 1) (.changeChannel 1))
      [.interrupts (startListening ++ receiveFrame [2, 0, 9]), .rxAvailable [],
        .rxReceiveByte []]).map (fun t => told t.log) = some [.data 9] := by decide +kernel
  obtain ⟨t, hr, ht⟩ := exists_run_of_exec hrun
  have hchange := change_between_packets (h := init false 128) .refl
  exact ⟨_, t, rfl, ht, hchange.1, hchange.2 1 _ t rfl rfl hr⟩

def receiveOne (frame : List UInt8) : List HostAction :=
  [.interrupts (receiveFrame frame), .rxAvailable [], .rxReceiveByte []]

/-- The channel is changed while the byte 8 is left to be read. The packet is released although the
main loop owns no buffer, and the byte 5, whose packet was accepted and read long before, comes out
again although nothing has been accepted since the change. -/
theorem stale_packet_after_change : ∃ h : Host,
    Run step ReceiveRule (init false 128) h ∧ .released 0 ⟨0, [7, 8]⟩ ∈ h.com.link.history ∧
    told h.log = [.data 5, .data 6, .data 7, .data 8, .data 5] ∧
    h.com.link.accepted = [⟨0, [5]⟩, ⟨0, [6]⟩, ⟨0, [7, 8]⟩] := by
  have hrun : (exec step ReceiveRule (init false 128)
      ([.interrupts startListening] ++ receiveOne [2, 0, 5] ++ receiveOne [2, 1, 6] ++
        receiveOne [3, 0, 7, 8] ++
        [.changeChannel 1, .rxReceiveByte [], .rxAvailable [], .rxReceiveByte []])).map
      (fun h => (h.com.link.history[5]?, told h.log, h.com.link.accepted)) =
      some (some (.released 0 ⟨0, [7, 8]⟩), [.data 5, .data 6, .data 7, .data 8, .data 5],
        [⟨0, [5]⟩, ⟨0, [6]⟩, ⟨0, [7, 8]⟩]) := by decide +kernel
  obtain ⟨h, hr, hobs⟩ := exists_run_of_exec hrun
  obtain ⟨hreleased, hrest⟩ := Prod.mk.inj hobs
  obtain ⟨htold, haccepted⟩ := Prod.mk.inj hrest
  exact ⟨h, hr, List.mem_of_getElem? hreleased, htold, haccepted⟩

end Host
end WixelSdk.RadioCom
