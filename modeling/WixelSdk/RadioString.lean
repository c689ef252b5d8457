import WixelSdk.RadioComPending
import WixelSdk.RadioComReset

/-!
# Strings over the radio

`sendBackString` of `wireless_serial_acm.c` and `radio_str.h` sends a string character by character. It
goes on to the next character whether or not `radioComTxAvailable` left room for this one, and it
throws the queue away when there is no room at the start.
-/

namespace WixelSdk.RadioString
open RadioMac RadioLink RadioCom Transition

/-- The layer below while a string is sent, the characters that were passed to `radioComTxSendByte`, and
how often `radioLinkTxQueueReset` was called. -/
structure Sending where
  com : Com
  passed : List UInt8
  queueResets : ℕ

/-- An iteration of the loop. -/
def Sending.sendChar (q : Sending) (char : UInt8) : Sending :=
  if q.com.interrupt.radioComTxAvailable ≠ 0 then
    { q with
      com := q.com.interrupt.interrupt.radioComTxSendByte char
      passed := q.passed ++ [char] }
  else { q with com := q.com.interrupt.interrupt.radioComTxService }

def startSending (c : Com) : Sending :=
  if c.interrupt.radioComTxAvailable = 0 then
    ⟨c.interrupt.interrupt.radioComTxService.interrupt.radioLinkTxQueueReset, [], 1⟩
  else ⟨c.interrupt, [], 0⟩

/-- The characters of `s` before the terminator. -/
def sendBackString (s : List UInt8) (c : Com) : Sending :=
  let q := s.foldl Sending.sendChar (startSending c)
  { q with com := q.com.interrupt.radioComTxService }

inductive AppAction
  | host (a : HostAction)
  | sendBackString (s : List UInt8) (is : List (List Irq))

/-- The layer below with an application that also sends strings. -/
def appStep (h : Host) : AppAction → Option Host
  | .host a => h.step a
  | .sendBackString s is => some ⟨(sendBackString s (h.com.schedule is)).com, h.log⟩

/-- After the characters were passed to `radioComTxSendByte` with the interrupts that come meanwhile. -/
def passAll (s : List UInt8) (c : Com) : Com :=
  s.foldl (fun c char => c.interrupt.interrupt.radioComTxSendByte char) c

/-- Every test finds room for the character that it is made for. -/
def Accepts : List UInt8 → Com → Prop
  | [], _ => True
  | char :: s, c =>
      c.interrupt.radioComTxAvailable ≠ 0 ∧ Accepts s (c.interrupt.interrupt.radioComTxSendByte char)

variable {c d : Com} {s : List UInt8} {q : Sending}

/-! ### Skipped characters -/

theorem sendChar_of_room (h : q.com.interrupt.radioComTxAvailable ≠ 0) (char : UInt8) :
    q.sendChar char = { q with
      com := q.com.interrupt.interrupt.radioComTxSendByte char
      passed := q.passed ++ [char] } := if_pos h

theorem sendChar_of_no_room (h : q.com.interrupt.radioComTxAvailable = 0) (char : UInt8) :
    q.sendChar char = { q with com := q.com.interrupt.interrupt.radioComTxService } :=
  if_neg (not_not.mpr h)

theorem length_passed_le (s : List UInt8) (q : Sending) :
    (s.foldl Sending.sendChar q).passed.length ≤ q.passed.length + s.length := by
  induction s generalizing q with
  | nil => exact Nat.le_refl _
  | cons char s ih =>
    rw [List.foldl_cons, List.length_cons]
    refine Nat.le_trans (ih _) ?_
    by_cases h : q.com.interrupt.radioComTxAvailable ≠ 0
    · rw [sendChar_of_room h, List.length_append, List.length_singleton]
      omega
    · rw [sendChar_of_no_room (not_not.mp h)]
      dsimp only
      omega

theorem passed_foldl_iff (s : List UInt8) (q : Sending) :
    (s.foldl Sending.sendChar q).passed = q.passed ++ s ↔ Accepts s q.com := by
  induction s generalizing q with
  | nil => exact iff_of_true (List.append_nil _).symm trivial
  | cons char s ih =>
    rw [List.foldl_cons, Accepts]
    by_cases h : q.com.interrupt.radioComTxAvailable ≠ 0
    · have hrest := ih (q.sendChar char)
      rw [sendChar_of_room h] at hrest ⊢
      rw [List.append_assoc] at hrest
      exact hrest.trans (and_iff_right h).symm
    · refine iff_of_false (fun hpassed => ?_) fun hboth => h hboth.1
      have hlength := length_passed_le s (q.sendChar char)
      rw [hpassed, sendChar_of_no_room (not_not.mp h), List.length_append, List.length_cons] at hlength
      dsimp only at hlength
      omega

theorem queueResets_foldl (s : List UInt8) (q : Sending) :
    (s.foldl Sending.sendChar q).queueResets = q.queueResets := by
  induction s generalizing q with
  | nil => rfl
  | cons char s ih =>
    rw [List.foldl_cons, ih]
    unfold Sending.sendChar
    split_ifs <;> rfl

theorem sends_all_iff_accepts (s : List UInt8) (c : Com) :
    (sendBackString s c).passed = s ∧ (sendBackString s c).queueResets = 0 ↔
      c.interrupt.radioComTxAvailable ≠ 0 ∧ Accepts s c.interrupt := by
  have hpassed := passed_foldl_iff s (startSending c)
  have hresets := queueResets_foldl s (startSending c)
  change (s.foldl Sending.sendChar (startSending c)).passed = s ∧
    (s.foldl Sending.sendChar (startSending c)).queueResets = 0 ↔ _
  rw [hresets]
  by_cases h : c.interrupt.radioComTxAvailable = 0
  · refine iff_of_false (fun hboth => ?_) fun hboth => hboth.1 h
    rw [startSending, if_pos h] at hboth
    exact absurd hboth.2 Nat.one_ne_zero
  · rw [startSending, if_neg h] at hpassed ⊢
    rw [← hpassed, and_iff_right h]
    exact and_iff_left rfl

/-! ### The room -/

/-- With room for `k` more bytes and a buffer to spare, and no control signals to send. -/
structure Ready (k : ℕ) (c : Com) : Prop where
  serviceable : c.link.Serviceable
  unfilled : c.Unfilled
  quiet : c.sendSignalsSoon = false
  room : k + payloadSize + c.txBytesLoaded.toNat ≤ payloadSize * c.link.radioLinkTxAvailable

theorem Ready.interrupt {k : ℕ} (h : Ready k c) : Ready k c.interrupt := by
  have hstill := Com.still_interrupt h.serviceable
  have hqueued := hstill.link.queued
  have hsum := c.link.radioLinkTxAvailable_add_queued
  have hsum' := c.interrupt.link.radioLinkTxAvailable_add_queued
  have hroom := h.room
  refine ⟨hstill.serviceable, h.unfilled.of_eq hstill.txBytesLoaded, h.quiet, ?_⟩
  rw [hstill.txBytesLoaded]
  simp only [payloadSize] at *
  omega

theorem Ready.schedule {k : ℕ} (h : Ready k c) (is : List (List Irq)) : Ready k (c.schedule is) :=
  ⟨h.serviceable, h.unfilled, h.quiet, h.room⟩

/-- A packet takes at most one buffer. -/
theorem queued_radioComSendDataNow (h : c.link.Serviceable) (hfree : c.link.radioLinkTxQueued < 15) :
    c.radioComSendDataNow.link.radioLinkTxQueued ≤ c.link.radioLinkTxQueued + 1 := by
  have hstore : (c.store c.packetPointer 0 c.txBytesLoaded).link.Serviceable ∧
      (c.store c.packetPointer 0 c.txBytesLoaded).link.radioLinkTxQueued =
        c.link.radioLinkTxQueued := by
    cases c.packetPointer with
    | none => exact ⟨h, rfl⟩
    | some p => exact ⟨h.storeTx _ _ _, rfl⟩
  change ((c.store c.packetPointer 0 c.txBytesLoaded).radioLinkTxSendPacket
    payloadTypeData).link.radioLinkTxQueued ≤ _
  generalize c.store c.packetPointer 0 c.txBytesLoaded = d at hstore ⊢
  obtain ⟨hd, hqueued⟩ := hstore
  rw [← hqueued] at hfree ⊢
  obtain ⟨hserves, hs⟩ := Com.serves_interrupt (c := d.writeTxHeader payloadTypeData)
    (hd.writeTxHeader payloadTypeData)
  have hbefore : (d.writeTxHeader payloadTypeData).interrupt.link.radioLinkTxQueued ≤
      d.link.radioLinkTxQueued := hserves.queued
  have hadd := Node.queued_advanceTxMainLoopIndex hs.toInRange (Nat.lt_of_le_of_lt hbefore hfree)
  obtain ⟨hserves', -⟩ := Com.serves_interrupt
    (c := (d.writeTxHeader payloadTypeData).interrupt.advanceTxMainLoopIndex)
    hs.advanceTxMainLoopIndex
  calc (d.radioLinkTxSendPacket payloadTypeData).link.radioLinkTxQueued
      ≤ (d.writeTxHeader payloadTypeData).interrupt.link.advanceTxMainLoopIndex.radioLinkTxQueued :=
        hserves'.queued
    _ = (d.writeTxHeader payloadTypeData).interrupt.link.radioLinkTxQueued + 1 := hadd
    _ ≤ d.link.radioLinkTxQueued + 1 := Nat.succ_le_succ hbefore

theorem startPacket_spec (h : c.link.Serviceable) : c.startPacket.link.Serviceable ∧
    c.startPacket.link.radioLinkTxQueued ≤ c.link.radioLinkTxQueued := by
  unfold Com.startPacket
  split_ifs
  · have hstill := Com.still_interrupt (c := { c with
      txPointer := c.radioLinkTxCurrentPacket
      packetPointer := c.radioLinkTxCurrentPacket }) h
    exact ⟨hstill.serviceable, hstill.link.queued⟩
  · exact ⟨h, Nat.le_refl _⟩

theorem appendByte_spec (h : c.link.Serviceable) (byte : UInt8) :
    (c.appendByte byte).link.Serviceable ∧
      (c.appendByte byte).link.radioLinkTxQueued = c.link.radioLinkTxQueued := by
  unfold Com.appendByte
  cases c.txPointer.next with
  | none => exact ⟨h, rfl⟩
  | some p => exact ⟨h.storeTx _ _ _, rfl⟩

theorem serviceable_radioComTxSendByte (h : c.link.Serviceable) (byte : UInt8) :
    (c.radioComTxSendByte byte).link.Serviceable :=
  ((Com.linkRule_relays c).radioComTxSendByte (.refl h) byte).serviceable

/-- A byte is loaded, or it completes a packet, which takes a buffer. -/
theorem radioComTxSendByte_spec (h : c.link.Serviceable) (hunfilled : c.Unfilled)
    (hfree : c.link.radioLinkTxQueued < 15) (byte : UInt8) :
    (c.radioComTxSendByte byte).txBytesLoaded.toNat = (c.txBytesLoaded.toNat + 1) % payloadSize ∧
      (c.radioComTxSendByte byte).link.radioLinkTxQueued ≤
        c.link.radioLinkTxQueued + (c.txBytesLoaded.toNat + 1) / payloadSize := by
  obtain ⟨hstart, hqueued⟩ := startPacket_spec h
  obtain ⟨happend, hsame⟩ := appendByte_spec hstart byte
  have hloaded : (c.startPacket.appendByte byte).txBytesLoaded.toNat =
      c.txBytesLoaded.toNat + 1 := by
    change (c.startPacket.txBytesLoaded + 1).toNat = _
    have hlt : c.txBytesLoaded.toNat < 18 := hunfilled
    rw [c.startPacket_txBytesLoaded, UInt8.toNat_add, UInt8.toNat_one, Nat.mod_eq_of_lt (by omega)]
  have hshort : c.txBytesLoaded.toNat < 18 := hunfilled
  unfold Com.radioComTxSendByte
  split_ifs with hfull
  · have hlast : c.txBytesLoaded.toNat + 1 = payloadSize := by
      rw [← hloaded, hfull]
      rfl
    have hstill := Com.still_interrupt happend
    have hle := hstill.link.queued
    have hsend := queued_radioComSendDataNow hstill.serviceable (by omega)
    rw [hlast]
    exact ⟨rfl, by simp only [payloadSize]; omega⟩
  · have hne : c.txBytesLoaded.toNat + 1 ≠ 18 := fun he =>
      hfull (UInt8.toNat_inj.mp (hloaded.trans he))
    rw [hloaded, Nat.mod_eq_of_lt (by simp only [payloadSize]; omega)]
    exact ⟨rfl, Nat.le_trans (Nat.le_of_eq hsame) (Nat.le_trans hqueued (Nat.le_add_right _ _))⟩

theorem Ready.radioComTxSendByte {k : ℕ} (h : Ready (k + 1) c) (byte : UInt8) :
    Ready k (c.radioComTxSendByte byte) := by
  have hsum := c.link.radioLinkTxAvailable_add_queued
  have hsum' := (c.radioComTxSendByte byte).link.radioLinkTxAvailable_add_queued
  have hroom := h.room
  have hshort : c.txBytesLoaded.toNat < 18 := h.unfilled
  obtain ⟨hloaded, hqueued⟩ := radioComTxSendByte_spec h.serviceable h.unfilled
    (by simp only [payloadSize] at hroom; omega) byte
  refine ⟨serviceable_radioComTxSendByte h.serviceable byte, h.unfilled.radioComTxSendByte byte,
    (c.radioComTxSendByte_sendSignalsSoon byte).trans h.quiet, ?_⟩
  rw [hloaded]
  simp only [payloadSize] at *
  omega

/-- With a buffer to spare, a writer is stopped only by a room of 256 bytes. -/
theorem Ready.room_iff {k : ℕ} (h : Ready k c) : c.radioComTxAvailable ≠ 0 ↔ ¬ c.RoomWraps := by
  have hroom := h.room
  refine not_congr ((Com.stopped_iff h.unfilled h.quiet).trans (or_iff_right fun hfull => ?_))
  rw [hfull.1] at hroom
  simp only [payloadSize] at hroom
  omega

theorem Ready.accepts_iff (h : Ready s.length c) :
    Accepts s c ↔ ∀ k < s.length, ¬ (passAll (s.take k) c).interrupt.RoomWraps := by
  induction s generalizing c with
  | nil => exact iff_of_true trivial fun k hk => absurd hk (Nat.not_lt_zero k)
  | cons char s ih =>
    have hrest := ih (Ready.radioComTxSendByte (k := s.length) h.interrupt.interrupt char)
    rw [Accepts, h.interrupt.room_iff, hrest, List.length_cons, Nat.forall_lt_succ_left]
    exact Iff.rfl

theorem Ready.mono {k l : ℕ} (h : Ready k c) (hl : l ≤ k) : Ready l c :=
  ⟨h.serviceable, h.unfilled, h.quiet, Nat.le_trans (by omega) h.room⟩

theorem Ready.loaded_passAll (h : Ready s.length c) :
    (passAll s c).txBytesLoaded.toNat = (c.txBytesLoaded.toNat + s.length) % payloadSize := by
  induction s generalizing c with
  | nil => exact (Nat.mod_eq_of_lt h.unfilled).symm
  | cons char s ih =>
    have hready : Ready (s.length + 1) c.interrupt.interrupt := h.interrupt.interrupt
    have hsum := c.interrupt.interrupt.link.radioLinkTxAvailable_add_queued
    have hroom := hready.room
    obtain ⟨hloaded, -⟩ := radioComTxSendByte_spec hready.serviceable hready.unfilled
      (by simp only [payloadSize] at hroom; omega) char
    refine (ih (hready.radioComTxSendByte char)).trans ?_
    rw [hloaded, Nat.mod_add_mod, List.length_cons, Nat.add_right_comm, Nat.add_assoc]
    rfl

theorem Ready.roomWraps_passAll_iff {k : ℕ} (h : Ready s.length c) (hk : k < s.length) :
    (passAll (s.take k) c).interrupt.RoomWraps ↔
      (c.txBytesLoaded.toNat + k) % payloadSize = 14 ∧
        (passAll (s.take k) c).interrupt.link.radioLinkTxAvailable = 15 := by
  have hlength : (s.take k).length = k := List.length_take_of_le (Nat.le_of_lt hk)
  have hloaded := (h.mono (l := (s.take k).length) (by omega)).loaded_passAll
  rw [hlength] at hloaded
  rw [← hloaded, and_comm]
  exact Iff.rfl

/-! ### Reachable states -/

theorem sending_preserves {I : Com → Prop} (hinterrupt : ∀ c, I c → I c.interrupt)
    (hservice : ∀ c, I c → I c.radioComTxService)
    (hbyte : ∀ c char, I c → I (c.radioComTxSendByte char))
    (hreset : ∀ c, I c → I c.radioLinkTxQueueReset) (s : List UInt8) (h : I c) :
    I (sendBackString s c).com := by
  have hstart : I (startSending c).com := by
    unfold startSending
    split_ifs
    · exact hreset _ (hinterrupt _ (hservice _ (hinterrupt _ (hinterrupt _ h))))
    · exact hinterrupt _ h
  refine hservice _ (hinterrupt _ ?_)
  generalize startSending c = q at hstart
  induction s generalizing q with
  | nil => exact hstart
  | cons char s ih =>
    refine ih (q.sendChar char) ?_
    unfold Sending.sendChar
    split_ifs
    · exact hbyte _ char (hinterrupt _ (hinterrupt _ hstart))
    · exact hservice _ (hinterrupt _ (hinterrupt _ hstart))

theorem serviceable_radioLinkTxQueueReset (h : c.link.Serviceable) :
    c.radioLinkTxQueueReset.link.Serviceable :=
  ⟨⟨h.rxMain, h.rxInterrupt, h.txMain, h.txMain, h.pktlen⟩, h.tuned⟩

variable {enforce : Bool} {channel : UInt8} {h : Host}

theorem ready_of_run (hr : Run appStep (fun _ _ => True) (Host.init enforce channel) h) :
    h.com.link.Serviceable ∧ h.com.Unfilled := by
  refine Run.invariant (I := fun h : Host => h.com.link.Serviceable ∧ h.com.Unfilled) hr
    ⟨Node.serviceable_radioLinkInit channel, Com.unfilled_of_zero rfl⟩ fun h a t hi _ ht => ?_
  cases a with
  | host a => exact ⟨(Host.keeps_step hi.1 ht).1, Host.unfilled_step hi.2 ht⟩
  | sendBackString s is =>
      obtain rfl := Option.some.inj ht
      refine sending_preserves (I := fun c => c.link.Serviceable ∧ c.Unfilled)
        (fun c h => ⟨(Com.serves_interrupt h.1).2, h.2⟩)
        (fun c h => ⟨((Com.txRule_relays c).radioComTxService (.refl h.1)).serviceable,
          h.2.radioComTxService⟩)
        (fun c char h => ⟨serviceable_radioComTxSendByte h.1 char, h.2.radioComTxSendByte char⟩)
        (fun c h => ⟨serviceable_radioLinkTxQueueReset h.1, h.2⟩) s hi

/-- Whatever interrupts come while a string is sent that the buffers hold: all characters are sent, and
no packets are thrown away, if and only if no test is made with fourteen bytes loaded and all fifteen
buffers free. -/
theorem sendBackString_sends_all_iff
    (hr : Run appStep (fun _ _ => True) (Host.init enforce channel) h)
    (hsoon : h.com.sendSignalsSoon = false)
    (hroom : s.length + 18 + h.com.txBytesLoaded.toNat ≤ 18 * h.com.link.radioLinkTxAvailable)
    (is : List (List Irq)) :
    ((sendBackString s (h.com.schedule is)).passed = s ∧
      (sendBackString s (h.com.schedule is)).queueResets = 0) ↔
    (h.com.txBytesLoaded.toNat = 14 →
      (h.com.schedule is).interrupt.link.radioLinkTxAvailable ≠ 15) ∧
    ∀ k < s.length, (h.com.txBytesLoaded.toNat + k) % 18 = 14 →
      (passAll (s.take k) (h.com.schedule is).interrupt).interrupt.link.radioLinkTxAvailable ≠
        15 := by
  obtain ⟨hserviceable, hunfilled⟩ := ready_of_run hr
  have hready : Ready s.length h.com := ⟨hserviceable, hunfilled, hsoon, hroom⟩
  have hstart := (hready.schedule is).interrupt
  rw [sends_all_iff_accepts, hstart.room_iff, hstart.accepts_iff]
  refine and_congr ?_ (forall₂_congr fun k hk => ?_)
  · rw [Com.RoomWraps, not_and']
    exact Iff.rfl
  · rw [hstart.roomWraps_passAll_iff hk, not_and]
    exact Iff.rfl

/-- Ten characters right after `radioComInit`. -/
theorem sendBackString_sends_ten :
    (sendBackString (List.replicate 10 0x61) ((Host.init false 128).com.schedule [])).passed =
      List.replicate 10 0x61 := by
  refine ((sendBackString_sends_all_iff .refl rfl (by decide) []).mpr ⟨fun h => ?_, ?_⟩).1
  · cases h
  · intro k hk h
    rw [List.length_replicate] at hk
    change (0 + k) % 18 = 14 at h
    omega

/-- Of fifteen characters right after `radioComInit` the last is skipped: fourteen bytes are loaded, and
all fifteen buffers are free. -/
theorem fifteenth_char_skipped :
    ¬ ∀ (h : Host) (s : List UInt8) (is : List (List Irq)),
      Run appStep (fun _ _ => True) (Host.init false 128) h → h.com.sendSignalsSoon = false →
      h.com.link.radioLinkResetPacketReceived = false →
      s.length + 18 + h.com.txBytesLoaded.toNat ≤ 18 * h.com.link.radioLinkTxAvailable →
        (sendBackString s (h.com.schedule is)).passed = s := by
  intro hall
  have hskipped : (sendBackString (List.replicate 15 0x61)
      ((Host.init false 128).com.schedule [])).passed = List.replicate 14 0x61 := by decide +kernel
  have hsent := hall (Host.init false 128) (List.replicate 15 0x61) [] .refl rfl rfl (by decide)
  exact absurd (hskipped.symm.trans hsent) (by decide)

end WixelSdk.RadioString
