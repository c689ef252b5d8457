import WixelSdk.Transition
import Mathlib.Data.UInt
import Mathlib.Logic.Function.Basic
import Mathlib.Data.List.Range

/-!
# The SPI master library

The variables and functions of `spi_master.c`. Memory is the whole 16-bit address space, so that a
pointer wraps around and the TX and RX buffers may be the same. A transfer is driven by the RX
interrupt, one byte at a time; meanwhile the main loop polls. `spiNMasterBytesLeft` is taken in
the steps between which an interrupt could run: it disables the interrupt, reads the two bytes of
the counter, and enables the interrupt again unless the counter is zero.
-/

namespace WixelSdk.SpiMaster
open Transition

structure Spi where
  mem : UInt16 → UInt8
  txPointer : UInt16
  rxPointer : UInt16
  bytesLeft : UInt16
  urxnif : Bool
  urxnie : Bool

namespace Spi

variable (s : Spi)

def spiNMasterBusy : Bool := s.urxnie

/-- The variables after the call and the byte that it writes to UNDBUF, if any. -/
def spiNMasterTransfer (txBuffer rxBuffer size : UInt16) : Spi × Option UInt8 :=
  if size ≠ 0 then
    ({ s with
      txPointer := txBuffer
      rxPointer := rxBuffer
      bytesLeft := size
      urxnie := true }, some (s.mem txBuffer))
  else (s, none)

/-- ISR_URX() up to the test of bytesLeft, reading UNDBUF. -/
def storeByte (undbuf : UInt8) : Spi :=
  { s with
    urxnif := false
    mem := Function.update s.mem s.rxPointer undbuf
    rxPointer := s.rxPointer + 1
    bytesLeft := s.bytesLeft - 1 }

/-- The rest of ISR_URX() and the byte that it writes to UNDBUF, if any. -/
def sendByte : Spi × Option UInt8 :=
  if s.bytesLeft ≠ 0 then
    ({ s with txPointer := s.txPointer + 1 }, some (s.mem (s.txPointer + 1)))
  else ({ s with urxnie := false }, none)

def isrUrx (undbuf : UInt8) : Spi × Option UInt8 := (s.storeByte undbuf).sendByte

/-- Only the TX pointer and the interrupt enable bit depend on whether bytes are left. -/
theorem isrUrx_eq (undbuf : UInt8) : (s.isrUrx undbuf).1 = { s.storeByte undbuf with
    txPointer := (s.isrUrx undbuf).1.txPointer
    urxnie := (s.isrUrx undbuf).1.urxnie } := by
  unfold isrUrx sendByte
  split_ifs <;> rfl

end Spi

/-- The place of the main loop in `spiNMasterBytesLeft`. -/
inductive MainLoop
  | idle
  | disabled
  | readLow (low : UInt8)
  | read (bytes : UInt16)
  deriving DecidableEq, Repr

structure Station where
  spi : Spi
  mainLoop : MainLoop
  written : List UInt8
  received : List UInt8
  /-- The results of spiNMasterBytesLeft(), each with the number of bytes received before it. -/
  polled : List (UInt16 × ℕ)

inductive Action
  | bytesLeft
  | next
  | isrUrx (undbuf : UInt8)
  deriving DecidableEq, Repr

namespace Station

variable (s : Station)

def start (spi : Spi) (txBuffer rxBuffer size : UInt16) : Station where
  spi := (spi.spiNMasterTransfer txBuffer rxBuffer size).1
  mainLoop := .idle
  written := (spi.spiNMasterTransfer txBuffer rxBuffer size).2.toList
  received := []
  polled := []

/-- `if (bytes) URXNIE = 1`, and the return. -/
def finishPoll (bytes : UInt16) : Station :=
  { s with
    spi := { s.spi with urxnie := if bytes ≠ 0 then true else s.spi.urxnie }
    mainLoop := .idle
    polled := s.polled ++ [(bytes, s.received.length)] }

def next : Option Station :=
  match s.mainLoop with
  | .idle => none
  | .disabled => some { s with mainLoop := .readLow s.spi.bytesLeft.toUInt8 }
  | .readLow low =>
      some { s with
        mainLoop := .read (UInt16.ofNat (s.spi.bytesLeft.toNat / 256 * 256 + low.toNat)) }
  | .read bytes => some (s.finishPoll bytes)

def exchange (undbuf : UInt8) : Station :=
  { s with
    spi := (s.spi.isrUrx undbuf).1
    written := s.written ++ (s.spi.isrUrx undbuf).2.toList
    received := s.received ++ [undbuf] }

def step : Action → Option Station
  | .bytesLeft => if s.mainLoop = .idle then
      some { s with spi := { s.spi with urxnie := false }, mainLoop := .disabled } else none
  | .next => s.next
  | .isrUrx undbuf => if s.spi.urxnie then some (s.exchange undbuf) else none

end Station

/-- The RX buffer is the TX buffer or has no byte in common with it. -/
def Placed (txBuffer rxBuffer size : UInt16) : Prop :=
  txBuffer = rxBuffer ∨ ∀ i j, i < size.toNat → j < size.toNat →
    txBuffer + UInt16.ofNat i ≠ rxBuffer + UInt16.ofNat j

/-- The state of a transfer from the memory `mem`, after as many interrupts as bytes were
received. -/
structure Exchanged (mem : UInt16 → UInt8) (txBuffer rxBuffer size : UInt16) (s : Station) :
    Prop where
  count : s.received.length ≤ size.toNat
  written : s.written = (List.range (min (s.received.length + 1) size.toNat)).map
    fun i => mem (txBuffer + UInt16.ofNat i)
  stored : ∀ i b, s.received[i]? = some b → s.spi.mem (rxBuffer + UInt16.ofNat i) = b
  frame : ∀ a, (∀ i < s.received.length, a ≠ rxBuffer + UInt16.ofNat i) → s.spi.mem a = mem a
  left : s.spi.bytesLeft.toNat = size.toNat - s.received.length
  polled : ∀ p ∈ s.polled, p.1.toNat = size.toNat - p.2 ∧ p.2 ≤ s.received.length
  polledInOrder : (s.polled.map Prod.snd).Pairwise (· ≤ ·)
  busy : s.mainLoop = .idle → (s.spi.spiNMasterBusy = true ↔ s.spi.bytesLeft ≠ 0)

/-- `Exchanged` with what the interrupt and a poll that is going on rely on. -/
structure Invariant (mem : UInt16 → UInt8) (txBuffer rxBuffer size : UInt16) (s : Station) : Prop
    extends Exchanged mem txBuffer rxBuffer size s where
  rxPointer : s.spi.rxPointer = rxBuffer + UInt16.ofNat s.received.length
  txPointer : s.received.length < size.toNat →
    s.spi.txPointer = txBuffer + UInt16.ofNat s.received.length
  polling : s.mainLoop ≠ .idle → s.spi.urxnie = false
  low : ∀ low, s.mainLoop = .readLow low → low = s.spi.bytesLeft.toUInt8
  read : ∀ bytes, s.mainLoop = .read bytes → bytes = s.spi.bytesLeft

variable {mem : UInt16 → UInt8} {txBuffer rxBuffer size : UInt16} {s t : Station} {a : Action}

theorem add_ofNat_succ (p : UInt16) (i : ℕ) :
    p + UInt16.ofNat (i + 1) = p + UInt16.ofNat i + 1 := by
  rw [UInt16.ofNat_add, ← UInt16.add_assoc]
  rfl

theorem add_ofNat_inj (p : UInt16) {i j : ℕ} (hi : i < 65536) (hj : j < 65536)
    (h : p + UInt16.ofNat i = p + UInt16.ofNat j) : i = j := by
  have hn := congrArg UInt16.toNat (add_left_cancel h)
  rwa [UInt16.toNat_ofNat_of_lt' hi, UInt16.toNat_ofNat_of_lt' hj] at hn

theorem ofNat_high_add_low (n : UInt16) :
    UInt16.ofNat (n.toNat / 256 * 256 + n.toUInt8.toNat) = n := by
  rw [UInt16.toNat_toUInt8, Nat.div_add_mod']
  exact UInt16.ofNat_toNat

theorem toNat_sub_one {n : UInt16} (hn : n ≠ 0) : (n - 1).toNat = n.toNat - 1 := by
  have hne : n.toNat ≠ 0 := fun he => hn (UInt16.toNat_inj.mp he)
  have hlt := n.toNat_lt
  rw [UInt16.toNat_sub]
  simp only [UInt16.reduceToNat]
  omega

/-! ### The interrupt -/

/-- A byte that is still to be sent lies where nothing has been received yet. -/
theorem Placed.unsent (h : Placed txBuffer rxBuffer size) {i j : ℕ} (hij : i < j)
    (hj : j < size.toNat) : txBuffer + UInt16.ofNat j ≠ rxBuffer + UInt16.ofNat i := by
  have hlt := size.toNat_lt
  rcases h with rfl | hdisjoint
  · intro he
    have heq := add_ofNat_inj txBuffer (by omega) (by omega) he
    omega
  · exact hdisjoint j i hj (by omega)

namespace Invariant

theorem received_lt (h : Invariant mem txBuffer rxBuffer size s) (hon : s.spi.urxnie = true) :
    s.received.length < size.toNat := by
  have hidle : s.mainLoop = .idle := by
    by_contra hpoll
    rw [h.polling hpoll] at hon
    cases hon
  have hne := (h.busy hidle).mp hon
  have hleft := h.left
  have hnat : s.spi.bytesLeft.toNat ≠ 0 := fun he => hne (UInt16.toNat_inj.mp he)
  omega

theorem stored_storeByte (h : Invariant mem txBuffer rxBuffer size s)
    (hlt : s.received.length < size.toNat) (undbuf : UInt8) (i : ℕ) (b : UInt8)
    (hb : (s.received ++ [undbuf])[i]? = some b) :
    (s.spi.storeByte undbuf).mem (rxBuffer + UInt16.ofNat i) = b := by
  have hsize := size.toNat_lt
  by_cases hi : i < s.received.length
  · rw [List.getElem?_append_left hi] at hb
    rw [← h.stored i b hb, Spi.storeByte, h.rxPointer]
    apply Function.update_of_ne
    intro he
    have heq := add_ofNat_inj rxBuffer (by omega) (by omega) he
    omega
  · have hle := (List.getElem?_eq_some_iff.mp hb).choose
    rw [List.length_append, List.length_singleton] at hle
    obtain rfl : i = s.received.length := by omega
    rw [List.getElem?_append_right le_rfl, Nat.sub_self] at hb
    obtain rfl := Option.some.inj hb
    rw [Spi.storeByte, h.rxPointer]
    exact Function.update_self _ _ _

theorem frame_storeByte (h : Invariant mem txBuffer rxBuffer size s) (undbuf : UInt8)
    (adr : UInt16) (ha : ∀ i < s.received.length + 1, adr ≠ rxBuffer + UInt16.ofNat i) :
    (s.spi.storeByte undbuf).mem adr = mem adr := by
  rw [← h.frame adr fun i hi => ha i (by omega), Spi.storeByte, h.rxPointer]
  exact Function.update_of_ne (ha _ (by omega)) _ _

theorem left_storeByte (h : Invariant mem txBuffer rxBuffer size s)
    (hlt : s.received.length < size.toNat) (undbuf : UInt8) :
    (s.spi.storeByte undbuf).bytesLeft.toNat = size.toNat - (s.received.length + 1) := by
  have hleft := h.left
  have hne : s.spi.bytesLeft ≠ 0 := by
    intro he
    rw [he, UInt16.toNat_zero] at hleft
    omega
  change (s.spi.bytesLeft - 1).toNat = _
  rw [toNat_sub_one hne]
  omega

/-- The byte that the interrupt sends is the one that the TX buffer held at the start. -/
theorem written_exchange (h : Invariant mem txBuffer rxBuffer size s)
    (hplace : Placed txBuffer rxBuffer size) (hlt : s.received.length < size.toNat)
    (undbuf : UInt8) : (s.exchange undbuf).written =
      (List.range (min (s.received.length + 1 + 1) size.toNat)).map
        fun i => mem (txBuffer + UInt16.ofNat i) := by
  have hleft := h.left_storeByte hlt undbuf
  have hold := h.written
  rw [Nat.min_eq_left hlt] at hold
  by_cases hmore : (s.spi.storeByte undbuf).bytesLeft ≠ 0
  · have hnat : (s.spi.storeByte undbuf).bytesLeft.toNat ≠ 0 :=
      fun he => hmore (UInt16.toNat_inj.mp he)
    have hsent : (s.exchange undbuf).written =
        s.written ++ [(s.spi.storeByte undbuf).mem (s.spi.txPointer + 1)] := by
      rw [Station.exchange, Spi.isrUrx, Spi.sendByte, if_pos hmore]
      rfl
    have hnext : (s.spi.storeByte undbuf).mem (txBuffer + UInt16.ofNat (s.received.length + 1)) =
        mem (txBuffer + UInt16.ofNat (s.received.length + 1)) :=
      h.frame_storeByte undbuf _ fun i hi => hplace.unsent hi (by omega)
    have hrange : List.range (s.received.length + 1 + 1) =
        List.range (s.received.length + 1) ++ [s.received.length + 1] := List.range_succ
    rw [hsent, hold, h.txPointer hlt, ← add_ofNat_succ, hnext, Nat.min_eq_left (by omega), hrange,
      List.map_append, List.map_singleton]
  · have hzero : (s.spi.storeByte undbuf).bytesLeft.toNat = 0 := by
      rw [not_not.mp hmore, UInt16.toNat_zero]
    have hsent : (s.exchange undbuf).written = s.written := by
      rw [Station.exchange, Spi.isrUrx, Spi.sendByte, if_neg hmore]
      exact List.append_nil _
    rw [hsent, hold, Nat.min_eq_right (by omega)]
    congr 2
    omega

/-- After the last byte the interrupt disables itself. -/
theorem busy_exchange (hon : s.spi.urxnie = true) (undbuf : UInt8) :
    (s.exchange undbuf).spi.urxnie = true ↔ (s.exchange undbuf).spi.bytesLeft ≠ 0 := by
  rw [Station.exchange, Spi.isrUrx_eq]
  dsimp only
  rw [Spi.isrUrx, Spi.sendByte]
  by_cases hmore : (s.spi.storeByte undbuf).bytesLeft ≠ 0
  · rw [if_pos hmore]
    exact iff_of_true hon hmore
  · rw [if_neg hmore]
    exact iff_of_false (fun hc => by cases hc) hmore

theorem txPointer_exchange (h : Invariant mem txBuffer rxBuffer size s) (undbuf : UInt8)
    (hmore : s.received.length + 1 < size.toNat) :
    (s.exchange undbuf).spi.txPointer = s.spi.txPointer + 1 := by
  have hleft := h.left_storeByte (by omega) undbuf
  have hne : (s.spi.storeByte undbuf).bytesLeft ≠ 0 := by
    intro he
    rw [he, UInt16.toNat_zero] at hleft
    omega
  rw [Station.exchange, Spi.isrUrx, Spi.sendByte, if_pos hne]
  rfl

theorem exchange (h : Invariant mem txBuffer rxBuffer size s)
    (hplace : Placed txBuffer rxBuffer size) (hon : s.spi.urxnie = true) (undbuf : UInt8) :
    Invariant mem txBuffer rxBuffer size (s.exchange undbuf) := by
  have hlt := h.received_lt hon
  have hidle : s.mainLoop = .idle := by
    by_contra hpoll
    rw [h.polling hpoll] at hon
    cases hon
  have hlen : (s.received ++ [undbuf]).length = s.received.length + 1 := by simp
  have hleft := h.left_storeByte hlt undbuf
  have hwritten := h.written_exchange hplace hlt undbuf
  have hmem : (s.exchange undbuf).spi.mem = (s.spi.storeByte undbuf).mem := by
    rw [Station.exchange, Spi.isrUrx_eq]
  have hbytes : (s.exchange undbuf).spi.bytesLeft = (s.spi.storeByte undbuf).bytesLeft := by
    rw [Station.exchange, Spi.isrUrx_eq]
  have hptr : (s.exchange undbuf).spi.rxPointer = s.spi.rxPointer + 1 := by
    rw [Station.exchange, Spi.isrUrx_eq]
    rfl
  refine ⟨⟨?_, ?_, ?_, ?_, ?_, ?_, h.polledInOrder, ?_⟩, ?_, ?_, ?_, ?_, ?_⟩
  · change (s.received ++ [undbuf]).length ≤ _
    omega
  · change _ = (List.range (min ((s.received ++ [undbuf]).length + 1) _)).map _
    rw [hlen, hwritten]
  · rw [hmem]
    exact h.stored_storeByte hlt undbuf
  · rw [hmem]
    intro adr ha
    exact h.frame_storeByte undbuf adr fun i hi => ha i (hlen ▸ hi)
  · rw [hbytes, hleft]
    change _ = _ - (s.received ++ [undbuf]).length
    rw [hlen]
  · intro p hp
    obtain ⟨hv, hle⟩ := h.polled p hp
    refine ⟨hv, hle.trans ?_⟩
    change _ ≤ (s.received ++ [undbuf]).length
    omega
  · exact fun _ => busy_exchange hon undbuf
  · rw [hptr, h.rxPointer, ← add_ofNat_succ]
    exact congrArg (fun n => rxBuffer + UInt16.ofNat n) hlen.symm
  · intro hmore
    have hmore' : s.received.length + 1 < size.toNat := hlen ▸ hmore
    rw [h.txPointer_exchange undbuf hmore', h.txPointer hlt, ← add_ofNat_succ]
    exact congrArg (fun n => txBuffer + UInt16.ofNat n) hlen.symm
  · exact fun hpoll => absurd hidle hpoll
  · intro low hlow
    have hlow' : s.mainLoop = .readLow low := hlow
    rw [hidle] at hlow'
    cases hlow'
  · intro bytes hread
    have hread' : s.mainLoop = .read bytes := hread
    rw [hidle] at hread'
    cases hread'

/-! ### The polls -/

theorem disable (h : Invariant mem txBuffer rxBuffer size s) :
    Invariant mem txBuffer rxBuffer size
      { s with spi := { s.spi with urxnie := false }, mainLoop := .disabled } :=
  ⟨⟨h.count, h.written, h.stored, h.frame, h.left, h.polled, h.polledInOrder,
    fun hm => (by cases hm)⟩, h.rxPointer, h.txPointer, fun _ => rfl,
    fun _ hm => (by cases hm), fun _ hm => (by cases hm)⟩

theorem finishPoll (h : Invariant mem txBuffer rxBuffer size s) {bytes : UInt16}
    (hm : s.mainLoop = .read bytes) :
    Invariant mem txBuffer rxBuffer size (s.finishPoll bytes) := by
  have hoff : s.spi.urxnie = false := h.polling (by simp [hm])
  have hbytes := h.read bytes hm
  refine ⟨⟨h.count, h.written, h.stored, h.frame, h.left, ?_, ?_, ?_⟩, h.rxPointer, h.txPointer,
    fun hne => absurd rfl hne, fun _ hlow => (by cases hlow), fun _ hread => (by cases hread)⟩
  · intro p hp
    rcases List.mem_append.mp hp with hp | hp
    · exact h.polled p hp
    · obtain rfl := List.mem_singleton.mp hp
      exact ⟨hbytes ▸ h.left, le_rfl⟩
  · change ((s.polled ++ [_]).map Prod.snd).Pairwise (· ≤ ·)
    rw [List.map_append, List.pairwise_append]
    refine ⟨h.polledInOrder, List.pairwise_singleton _ _, ?_⟩
    intro k hk l hl
    obtain ⟨p, hp, rfl⟩ := List.mem_map.mp hk
    obtain rfl := List.mem_singleton.mp hl
    exact (h.polled p hp).2
  · intro _
    rw [hbytes]
    change (if s.spi.bytesLeft ≠ 0 then true else s.spi.urxnie) = true ↔ s.spi.bytesLeft ≠ 0
    split_ifs with hne
    · exact ⟨fun _ => hne, fun _ => rfl⟩
    · rw [hoff]
      exact ⟨fun hc => (by cases hc), fun hc => absurd hc hne⟩

theorem next (h : Invariant mem txBuffer rxBuffer size s) (hs : s.next = some t) :
    Invariant mem txBuffer rxBuffer size t := by
  unfold Station.next at hs
  split at hs
  · cases hs
  · rename_i hm
    obtain rfl := Option.some.inj hs
    have hoff : s.spi.urxnie = false := h.polling (by simp [hm])
    exact ⟨⟨h.count, h.written, h.stored, h.frame, h.left, h.polled, h.polledInOrder,
      fun hidle => (by cases hidle)⟩, h.rxPointer, h.txPointer, fun _ => hoff,
      fun low hlow => (MainLoop.readLow.inj hlow).symm, fun _ hread => (by cases hread)⟩
  · rename_i low hm
    obtain rfl := Option.some.inj hs
    have hoff : s.spi.urxnie = false := h.polling (by simp [hm])
    refine ⟨⟨h.count, h.written, h.stored, h.frame, h.left, h.polled, h.polledInOrder,
      fun hidle => (by cases hidle)⟩, h.rxPointer, h.txPointer, fun _ => hoff,
      fun _ hlow => (by cases hlow), ?_⟩
    intro bytes hread
    rw [← MainLoop.read.inj hread, h.low low hm]
    exact ofNat_high_add_low s.spi.bytesLeft
  · rename_i bytes hm
    obtain rfl := Option.some.inj hs
    exact h.finishPoll hm

end Invariant

theorem invariant_start (spi : Spi) (txBuffer rxBuffer : UInt16) (hsize : size ≠ 0) :
    Invariant spi.mem txBuffer rxBuffer size (.start spi txBuffer rxBuffer size) := by
  have hpos : 1 ≤ size.toNat := by
    have hne : size.toNat ≠ 0 := fun he => hsize (UInt16.toNat_inj.mp he)
    omega
  rw [Station.start, Spi.spiNMasterTransfer, if_pos hsize]
  refine ⟨⟨Nat.zero_le _, ?_, fun i b hb => (by cases hb), fun _ _ => rfl, rfl,
    fun p hp => (by cases hp), List.Pairwise.nil, fun _ => ⟨fun _ => hsize, fun _ => rfl⟩⟩,
    (UInt16.add_zero _).symm, fun _ => (UInt16.add_zero _).symm, fun hpoll => absurd rfl hpoll,
    fun _ hlow => (by cases hlow), fun _ hread => (by cases hread)⟩
  rw [List.length_nil, Nat.zero_add, Nat.min_eq_left hpos]
  exact congrArg (fun p => [spi.mem p]) (UInt16.add_zero _).symm

theorem invariant_step (hplace : Placed txBuffer rxBuffer size)
    (h : Invariant mem txBuffer rxBuffer size s) (hs : s.step a = some t) :
    Invariant mem txBuffer rxBuffer size t := by
  cases a with
  | bytesLeft =>
      simp only [Station.step] at hs
      split_ifs at hs
      obtain rfl := Option.some.inj hs
      exact h.disable
  | next => exact h.next hs
  | isrUrx undbuf =>
      simp only [Station.step] at hs
      split_ifs at hs with hon
      obtain rfl := Option.some.inj hs
      exact h.exchange hplace hon undbuf

/-- A transfer exchanges the bytes of its buffers one for one, whatever is polled meanwhile. -/
theorem transfer_exchanges (spi : Spi) (hsize : size ≠ 0) (hplace : Placed txBuffer rxBuffer size)
    (hr : Run Station.step (fun _ _ => True) (.start spi txBuffer rxBuffer size) s) :
    Exchanged spi.mem txBuffer rxBuffer size s := by
  have h : Invariant spi.mem txBuffer rxBuffer size s :=
    Run.invariant hr (invariant_start spi txBuffer rxBuffer hsize)
      fun _ _ _ h _ hs => invariant_step hplace h hs
  exact h.toExchanged

/-- Memory that holds 5 and 6 at the addresses 10 and 11. -/
def twoBytes : Spi where
  mem a := if a = 10 then 5 else if a = 11 then 6 else 0
  txPointer := 0
  rxPointer := 0
  bytesLeft := 0
  urxnif := false
  urxnie := false

/-- A transfer in place, polled after its first byte. -/
theorem transfer_exchanges_in_place : ∃ s,
    Run Station.step (fun _ _ => True) (.start twoBytes 10 10 2) s ∧
    (s.written, s.received, s.polled, s.spi.bytesLeft) = ([5, 6], [8, 9], [(1, 1)], 0) ∧
    Exchanged twoBytes.mem 10 10 2 s := by
  have hrun : (exec Station.step (fun _ _ => True) (.start twoBytes 10 10 2)
      [.isrUrx 8, .bytesLeft, .next, .next, .next, .isrUrx 9]).map
      (fun s => (s.written, s.received, s.polled, s.spi.bytesLeft)) =
      some ([5, 6], [8, 9], [(1, 1)], 0) := by decide +kernel
  obtain ⟨s, hr, hs⟩ := exists_run_of_exec hrun
  exact ⟨s, hr, hs, transfer_exchanges twoBytes (by decide) (Or.inl rfl) hr⟩

end WixelSdk.SpiMaster
