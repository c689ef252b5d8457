import WixelSdk.RadioComPacking

/-!
# The value of `radioComTxAvailable`

The room in bytes is computed in eight bits. Whatever the callers do, fewer than eighteen bytes are
loaded between two calls, so the value is zero with a free buffer in exactly one case: all fifteen
buffers are free and fourteen bytes are loaded.
-/

namespace WixelSdk.RadioCom
open RadioMac RadioLink Transition

namespace Com

variable {c : Com}

def Unfilled (c : Com) : Prop := c.txBytesLoaded.toNat < payloadSize

theorem Unfilled.of_eq {d : Com} (h : Unfilled c) (hd : d.txBytesLoaded = c.txBytesLoaded) :
    Unfilled d := by
  rw [Unfilled, hd]
  exact h

theorem unfilled_of_zero (h : c.txBytesLoaded = 0) : Unfilled c := by
  rw [Unfilled, h]
  decide

theorem rxParts_unfilled : RxParts Unfilled where
  interrupt _ h := h
  load _ _ h := h
  note _ _ h := h
  done _ h := h
  advance _ h := h

theorem Unfilled.noticeReset (h : Unfilled c) : Unfilled c.noticeReset :=
  noticeReset_preserves (fun _ h => h) (fun _ h => h) (fun _ h => h) h

theorem Unfilled.radioComTxService (h : Unfilled c) : Unfilled c.radioComTxService := by
  have hflush := unfilled_of_zero c.noticeReset.flushData_txBytesLoaded
  unfold Com.radioComTxService
  split_ifs
  · exact hflush.of_eq (radioComSendControlSignalsNow_txBytesLoaded _)
  · exact hflush
  · exact unfilled_of_zero rfl
  · exact h.noticeReset

theorem startPacket_txBytesLoaded (c : Com) : c.startPacket.txBytesLoaded = c.txBytesLoaded := by
  unfold startPacket
  split_ifs <;> rfl

theorem radioComTxSendByte_sendSignalsSoon (c : Com) (byte : UInt8) :
    (c.radioComTxSendByte byte).sendSignalsSoon = c.sendSignalsSoon := by
  have hstart : c.startPacket.sendSignalsSoon = c.sendSignalsSoon := by
    unfold startPacket
    split_ifs <;> rfl
  have happend : (c.startPacket.appendByte byte).sendSignalsSoon = c.sendSignalsSoon :=
    (store_sendSignalsSoon _ _ _ _).trans hstart
  unfold Com.radioComTxSendByte
  split_ifs
  · exact (radioComSendDataNow_sendSignalsSoon _).trans happend
  · exact happend

theorem Unfilled.radioComTxSendByte (h : Unfilled c) (byte : UInt8) :
    Unfilled (c.radioComTxSendByte byte) := by
  have hstart : c.startPacket.txBytesLoaded.toNat < payloadSize := by
    rw [startPacket_txBytesLoaded]
    exact h
  unfold Com.radioComTxSendByte
  split_ifs with hfull
  · exact unfilled_of_zero rfl
  · have hne : (c.startPacket.appendByte byte).txBytesLoaded.toNat ≠ payloadSize := fun he =>
      hfull (UInt8.toNat_inj.mp he)
    have hsucc : (c.startPacket.appendByte byte).txBytesLoaded.toNat =
        c.startPacket.txBytesLoaded.toNat + 1 := by
      change (c.startPacket.txBytesLoaded + 1).toNat = _
      rw [UInt8.toNat_add, UInt8.toNat_one, Nat.mod_eq_of_lt]
      simp only [payloadSize] at hstart
      omega
    unfold Unfilled
    omega

theorem Unfilled.radioComTxControlSignals (h : Unfilled c) (v : UInt8) :
    Unfilled (c.radioComTxControlSignals v) := by
  unfold Com.radioComTxControlSignals
  split_ifs
  · exact Unfilled.radioComTxService (c := c.requestSignals v) h
  · exact h

/-- The writer is stopped only when no buffer is free, and it is never promised too much. -/
def RoomExact (c : Com) : Prop :=
  (c.link.radioLinkTxAvailable ≠ 0 → c.radioComTxAvailable ≠ 0) ∧
    c.radioComTxAvailable.toNat + c.txBytesLoaded.toNat ≤
      payloadSize * c.link.radioLinkTxAvailable

/-- The room of 256 bytes, which is 0 in eight bits. -/
def RoomWraps (c : Com) : Prop :=
  c.link.radioLinkTxAvailable = 15 ∧ c.txBytesLoaded.toNat = 14

theorem toNat_radioComTxAvailable (hsoon : c.sendSignalsSoon = false) :
    c.radioComTxAvailable.toNat =
      (256 - c.txBytesLoaded.toNat + payloadSize * c.link.radioLinkTxAvailable) % 256 := by
  have hsize : radioLinkPayloadSize.toNat = 18 := rfl
  unfold radioComTxAvailable
  rw [hsoon, if_neg Bool.false_ne_true]
  simp only [UInt8.toNat_sub, UInt8.toNat_mul, UInt8.toNat_ofNat', hsize, payloadSize]
  omega

theorem room_mod {a l : ℕ} (ha : a ≤ 15) (hl : l < payloadSize) :
    ((256 - l + payloadSize * a) % 256 = 0 ↔ a = 0 ∧ l = 0 ∨ a = 15 ∧ l = 14) ∧
      ((256 - l + payloadSize * a) % 256 + l ≤ payloadSize * a ↔ (a = 0 → l = 0)) := by
  simp only [payloadSize] at *
  have hquotient : (256 - l + 18 * a) / 256 = 0 ∨ (256 - l + 18 * a) / 256 = 1 ∨
      (256 - l + 18 * a) / 256 = 2 := by omega
  rcases hquotient with hq | hq | hq <;> omega

theorem stopped_iff (h : Unfilled c) (hsoon : c.sendSignalsSoon = false) :
    c.radioComTxAvailable = 0 ↔
      c.link.radioLinkTxAvailable = 0 ∧ c.txBytesLoaded = 0 ∨ c.RoomWraps := by
  have hsum := c.link.radioLinkTxAvailable_add_queued
  have hloaded : c.txBytesLoaded = 0 ↔ c.txBytesLoaded.toNat = 0 := UInt8.toNat_inj.symm
  rw [← UInt8.toNat_inj, toNat_radioComTxAvailable hsoon, hloaded, RoomWraps]
  exact (room_mod (by omega) h).1

theorem roomExact_iff (h : Unfilled c) (hsoon : c.sendSignalsSoon = false) :
    c.RoomExact ↔
      (c.link.radioLinkTxAvailable = 0 → c.txBytesLoaded = 0) ∧ ¬ c.RoomWraps := by
  have hsum := c.link.radioLinkTxAvailable_add_queued
  have hloaded : c.txBytesLoaded = 0 ↔ c.txBytesLoaded.toNat = 0 := UInt8.toNat_inj.symm
  have hmost := (room_mod (a := c.link.radioLinkTxAvailable) (by omega) h).2
  rw [RoomExact, ne_eq (c.radioComTxAvailable), stopped_iff h hsoon,
    toNat_radioComTxAvailable hsoon, hmost, hloaded]
  constructor
  · rintro ⟨hstop, hzero⟩
    exact ⟨hzero, fun hwraps => hstop (by rw [hwraps.1]; decide) (.inr hwraps)⟩
  · rintro ⟨hzero, hwraps⟩
    exact ⟨fun hfree hstop => hstop.elim (fun hfull => hfree hfull.1) hwraps, hzero⟩

theorem full_iff_of_stopped (h : Unfilled c) (hsoon : c.sendSignalsSoon = false)
    (hstop : c.radioComTxAvailable = 0) :
    c.link.radioLinkTxAvailable = 0 ↔ ¬ c.RoomWraps := by
  constructor
  · intro hfull hwraps
    rw [hwraps.1] at hfull
    cases hfull
  · intro hwraps
    exact (((stopped_iff h hsoon).mp hstop).resolve_right hwraps).1

end Com

namespace Host

variable {enforce : Bool} {channel : UInt8} {h t : Host} {a : HostAction}

theorem unfilled_step (hu : Com.Unfilled h.com) (ht : h.step a = some t) : Com.Unfilled t.com := by
  cases a with
  | interrupts is => obtain rfl := Option.some.inj ht; exact hu
  | txAvailable => obtain rfl := Option.some.inj ht; exact hu
  | changeChannel channel => obtain rfl := Option.some.inj ht; exact hu
  | txService is =>
      obtain rfl := Option.some.inj ht
      exact Com.Unfilled.radioComTxService (c := h.com.schedule is) hu
  | txSendByte byte is =>
      obtain rfl := Option.some.inj ht
      exact Com.Unfilled.radioComTxSendByte (c := h.com.schedule is) hu byte
  | txControlSignals v is =>
      obtain rfl := Option.some.inj ht
      exact Com.Unfilled.radioComTxControlSignals (c := h.com.schedule is) hu v
  | rxAvailable is =>
      obtain ⟨d, hd, rfl⟩ := step_rxAvailable ht
      exact Com.rxParts_unfilled.rxRule.receiveMorePackets (c := h.com.schedule is) hu hd
  | rxReceiveByte is =>
      obtain rfl := Option.some.inj ht
      exact Com.rxParts_unfilled.radioComRxReceiveByte (c := h.com.schedule is) hu
  | rxControlSignals is =>
      obtain ⟨d, hd, rfl⟩ := step_rxControlSignals ht
      have hd' : Com.Unfilled d :=
        Com.rxParts_unfilled.rxRule.receiveMorePackets (c := h.com.schedule is) hu hd
      exact hd'

theorem unfilled_of_run {C : Host → HostAction → Prop} (hr : Run step C (init enforce channel) h) :
    Com.Unfilled h.com :=
  Run.invariant (I := fun h => Com.Unfilled h.com) hr (Com.unfilled_of_zero rfl)
    fun _ _ _ hu _ ht => unfilled_step hu ht

/-- The calls of a writer, between which packets may be acknowledged. -/
def Writes (h : Host) : HostAction → Prop
  | .interrupts _ => True
  | .txAvailable => True
  | .txSendByte _ _ => h.com.radioComTxAvailable ≠ 0
  | _ => False

instance (h : Host) (a : HostAction) : Decidable (Writes h a) := by
  rcases a with ⟨⟩ <;> dsimp only [Writes] <;> infer_instance

theorem writes_step (hsoon : h.com.sendSignalsSoon = false) (ha : h.Writes a)
    (ht : h.step a = some t) : t.com.sendSignalsSoon = false := by
  cases a with
  | interrupts is => obtain rfl := Option.some.inj ht; exact hsoon
  | txAvailable => obtain rfl := Option.some.inj ht; exact hsoon
  | txSendByte byte is =>
      obtain rfl := Option.some.inj ht
      exact ((h.com.schedule is).radioComTxSendByte_sendSignalsSoon byte).trans hsoon
  | _ => exact ha.elim

/-- Whatever calls were made before, the room is exact if and only if it does not wrap and no byte was
loaded without a free buffer. A writer that is stopped has filled all buffers if and only if the room
does not wrap. If every byte was sent after `radioComTxAvailable` had returned non-zero, a free buffer
is left for the bytes that are loaded. -/
theorem radioComTxAvailable_exact_iff (hr : Run step (fun _ _ => True) (init enforce channel) h)
    (hsoon : h.com.sendSignalsSoon = false) :
    (h.com.RoomExact ↔ (h.com.link.radioLinkTxAvailable = 0 → h.com.txBytesLoaded = 0) ∧
      ¬ h.com.RoomWraps) ∧
    (∀ t, Run step Writes h t → t.com.radioComTxAvailable = 0 →
      (t.com.link.radioLinkTxAvailable = 0 ↔ ¬ t.com.RoomWraps)) ∧
    (Run step Polled (init enforce channel) h →
      h.com.link.radioLinkTxAvailable = 0 → h.com.txBytesLoaded = 0) := by
  refine ⟨Com.roomExact_iff (unfilled_of_run hr) hsoon, fun t ht hstop => ?_, fun hp hfull => ?_⟩
  · have hinv : Com.Unfilled t.com ∧ t.com.sendSignalsSoon = false :=
      Run.invariant (I := fun t => Com.Unfilled t.com ∧ t.com.sendSignalsSoon = false) ht
        ⟨unfilled_of_run hr, hsoon⟩
        fun _ _ _ hi ha hs => ⟨unfilled_step hi.1 hs, writes_step hi.2 ha hs⟩
    exact Com.full_iff_of_stopped hinv.1 hinv.2 hstop
  · have hpacked : Packed h := Run.invariant hp (packed_init enforce channel)
      fun _ _ _ hi ha hs => hi.step ha hs
    have hsum := h.com.link.radioLinkTxAvailable_add_queued
    by_contra hl
    have hfree := (hpacked.packing.packet hl).free
    omega

def writeBytes (n : ℕ) : List HostAction :=
  (List.range n).flatMap fun i => [.txAvailable, .txSendByte (UInt8.ofNat i) []]

/-- Five bytes are queued in a packet, and two more are loaded. -/
theorem radioComTxAvailable_exact_sevenBytes : ∃ h, Run step Polled (init false 128) h ∧
    h.com.link.radioLinkTxQueued = 1 ∧ h.com.txBytesLoaded = 2 ∧ h.com.RoomExact ∧
    ∀ t, Run step Writes h t → t.com.radioComTxAvailable = 0 →
      (t.com.link.radioLinkTxAvailable = 0 ↔ ¬ t.com.RoomWraps) := by
  have hrun : (exec step Polled (init false 128)
      (writeBytes 5 ++ .txService [] :: writeBytes 2)).map (fun h =>
      (h.com.sendSignalsSoon, h.com.link.radioLinkTxQueued, h.com.txBytesLoaded)) =
      some (false, 1, 2) := by decide +kernel
  obtain ⟨h, hr, hv⟩ := exists_run_of_exec hrun
  obtain ⟨hsoon, hqueued, hloaded⟩ :
      h.com.sendSignalsSoon = false ∧ h.com.link.radioLinkTxQueued = 1 ∧
      h.com.txBytesLoaded = 2 := by
    simpa only [Prod.mk.injEq] using hv
  obtain ⟨hexact, hwriter, hfull⟩ :=
    radioComTxAvailable_exact_iff (hr.mono fun _ _ _ => trivial) hsoon
  refine ⟨h, hr, hqueued, hloaded, hexact.mpr ⟨hfull hr, fun hwraps => ?_⟩, hwriter⟩
  have hnone := hwraps.2
  rw [hloaded] at hnone
  exact absurd hnone (by decide)

/-- A writer is stopped after fourteen bytes although all fifteen buffers are free. -/
theorem writer_stopped_early : ∃ h, Run step Polled (init false 128) h ∧
    Run step Writes (init false 128) h ∧
    h.com.sendSignalsSoon = false ∧ h.com.link.radioLinkResetPacketReceived = false ∧
    h.com.radioComTxAvailable = 0 ∧ h.com.link.radioLinkTxAvailable = 15 := by
  have hrun : (exec step (fun h a => Polled h a ∧ Writes h a) (init false 128) (writeBytes 14)).map
      (fun h => (h.com.sendSignalsSoon, h.com.link.radioLinkResetPacketReceived,
        h.com.radioComTxAvailable, h.com.link.radioLinkTxAvailable)) =
      some (false, false, 0, 15) := by decide +kernel
  obtain ⟨h, hr, hv⟩ := exists_run_of_exec hrun
  obtain ⟨hsoon, hreset, hstop, hfree⟩ :
      h.com.sendSignalsSoon = false ∧ h.com.link.radioLinkResetPacketReceived = false ∧
      h.com.radioComTxAvailable = 0 ∧ h.com.link.radioLinkTxAvailable = 15 := by
    simpa only [Prod.mk.injEq] using hv
  exact ⟨h, hr.mono fun _ _ ha => ha.1, hr.mono fun _ _ ha => ha.2, hsoon, hreset, hstop, hfree⟩

end Host
end WixelSdk.RadioCom
