import WixelSdk.Framing
import WixelSdk.Packet
import WixelSdk.Reporting

/-!
# The packet demonstration

`wireless_serial_packet.c`: `usbToRadioService` and `robotRadioService` share the flag `readstate`,
the packet and its index `i`. A call takes at most one byte off the radio, and a packet is printed
by the first call after its last byte.
-/

namespace WixelSdk.WirelessSerialPacket
open Packet Reporting Framing

/-- `incoming` are the bytes that `radioComRxReceiveByte` is going to return, `received` those that
it has returned, and `processed` the contents of `packet` whenever its fields were printed. -/
structure App where
  readstate : Bool
  i : UInt8
  packet : QTuple
  report : Buffer
  incoming : List UInt8
  received : List UInt8
  processed : List (List UInt8)

inductive Mode
  | tethered
  | untethered
  deriving DecidableEq, Repr

/-- What a call meets: the function that the main loop calls, whether `radioComRxAvailable` finds a
byte, and what `usbComTxAvailable` or `radioComTxAvailable` returns. -/
structure Call where
  mode : Mode
  rxAvailable : Bool
  txAvailable : UInt8

def contents (p : QTuple) : List UInt8 := List.ofFn p.bytes

def printf (report : Buffer) (before : String) (number : ℕ) (after : String) : Buffer :=
  (before.toList ++ (Nat.toDigits 10 number ++ after.toList)).foldl
    (fun b c => b.putchar (.ofNat c.toNat)) report

def printFields (report : Buffer) (p : QTuple) : Buffer :=
  let report := printf report "ID: " p.readID.toNat ", "
  let report := printf report "Y: " p.readY.toNat ", "
  let report := printf report "X: " p.readX.toNat ", "
  let report := printf report "R: " p.readR.toNat ""
  (report.putchar 10).putchar 13

namespace App

variable (s : App)

def receiveByte (rxAvailable : Bool) : Option (UInt8 × App) :=
  match rxAvailable, s.incoming with
  | true, byte :: rest => some (byte, { s with incoming := rest, received := s.received ++ [byte] })
  | _, _ => none

/-- A byte that is taken in the idle state; `checkHeader` stores a header in the packet. -/
def takeHeader (byte : UInt8) : App :=
  if checkHeader byte then { s with i := 0, packet := s.packet.store 0 byte, readstate := true }
  else s

def idle (rxAvailable : Bool) : App :=
  (s.receiveByte rxAvailable).elim s fun r => r.2.takeHeader r.1

def collect (h : s.i.toNat + 1 < qTupleSize) (rxAvailable : Bool) : App :=
  (s.receiveByte rxAvailable).elim s fun r =>
    { r.2 with packet := s.packet.store ⟨s.i.toNat + 1, h⟩ r.1, i := s.i + 1 }

def process : App :=
  { s with
    readstate := false
    i := 0
    report := printFields s.report s.packet
    processed := s.processed ++ [contents s.packet] }

/-- What the two service functions have in common. -/
def service (rxAvailable : Bool) : App :=
  if s.readstate then
    if h : s.i.toNat + 1 < qTupleSize then s.collect h rxAvailable else s.process
  else s.idle rxAvailable

def usbToRadioService (rxAvailable : Bool) (txAvailable : UInt8) : Option App :=
  ((s.service rxAvailable).report.sendReportUSB txAvailable).map fun r =>
    { s.service rxAvailable with report := r.2 }

def robotRadioService (rxAvailable : Bool) (txAvailable : UInt8) : Option App :=
  ((s.service rxAvailable).report.sendReportRadio txAvailable).map fun r =>
    { s.service rxAvailable with report := r.2 }

def call (c : Call) : Option App :=
  match c.mode with
  | .tethered => s.usbToRadioService c.rxAvailable c.txAvailable
  | .untethered => s.robotRadioService c.rxAvailable c.txAvailable

def calls : App → List Call → Option App
  | s, [] => some s
  | s, c :: cs => (s.call c).bind fun t => t.calls cs

end App

/-! ### The bytes of the packet -/

theorem length_contents (p : QTuple) : (contents p).length = qTupleSize := List.length_ofFn

theorem getElem?_contents (p : QTuple) {k : ℕ} (hk : k < qTupleSize) :
    (contents p)[k]? = some (p.bytes ⟨k, hk⟩) := by
  rw [contents, List.getElem?_ofFn, dif_pos hk]

/-- The bytes up to the one that is stored. -/
theorem take_store (p : QTuple) {k : ℕ} (hk : k < qTupleSize) (byte : UInt8) :
    (contents (p.store ⟨k, hk⟩ byte)).take (k + 1) = (contents p).take k ++ [byte] := by
  rw [List.take_add_one, getElem?_contents _ hk]
  have hsame : (contents (p.store ⟨k, hk⟩ byte)).take k = (contents p).take k := by
    refine List.ext_getElem? fun j => ?_
    rw [List.getElem?_take, List.getElem?_take]
    split_ifs with hj
    · have hlt := Nat.lt_trans hj hk
      rw [getElem?_contents _ hlt, getElem?_contents _ hlt]
      exact congrArg some (Function.update_of_ne (Fin.ne_of_val_ne (Nat.ne_of_lt hj)) _ _)
    · rfl
  rw [hsame]
  exact congrArg (fun b => _ ++ [b]) (Function.update_self ..)

theorem bytes_zero_store (p : QTuple) {k : ℕ} (hk : k + 1 < qTupleSize) (byte : UInt8) :
    (p.store ⟨k + 1, hk⟩ byte).bytes 0 = p.bytes 0 := by
  have hne : (0 : Fin qTupleSize) ≠ ⟨k + 1, hk⟩ := fun he =>
    Nat.succ_ne_zero k (congrArg Fin.val he).symm
  exact Function.update_of_ne hne byte p.bytes

/-! ### Framing -/

namespace App

variable {s t : App} {rxAvailable : Bool}

def unfinished (s : App) : List UInt8 :=
  if s.readstate then (contents s.packet).take (s.i.toNat + 1) else []

/-- Between two calls. -/
structure Framing (s : App) : Prop where
  framed : Framed checkHeader 4 s.received s.processed s.unfinished
  inside : s.readstate = true → s.i.toNat < qTupleSize
  header : s.readstate = true → checkHeader (s.packet.bytes 0) = true

theorem receiveByte_cases (s : App) (rxAvailable : Bool) : s.receiveByte rxAvailable = none ∨
    ∃ byte rest, s.incoming = byte :: rest ∧ s.receiveByte rxAvailable =
      some (byte, { s with incoming := rest, received := s.received ++ [byte] }) := by
  unfold receiveByte
  cases rxAvailable with
  | false => exact Or.inl rfl
  | true =>
      cases hin : s.incoming with
      | nil => exact Or.inl rfl
      | cons byte rest => exact Or.inr ⟨byte, rest, rfl, rfl⟩

theorem unfinished_of_idle (h : s.readstate = false) : s.unfinished = [] := if_neg (by rw [h]; decide)

theorem unfinished_of_reading (h : s.readstate = true) :
    s.unfinished = (contents s.packet).take (s.i.toNat + 1) := if_pos h

/-- A full packet is its header and four more bytes. -/
theorem contents_eq (p : QTuple) : ∃ rest, contents p = p.bytes 0 :: rest ∧ rest.length = 4 :=
  ⟨List.ofFn fun k : Fin 4 => p.bytes k.succ, List.ofFn_succ, List.length_ofFn⟩

theorem Framing.idle (h : s.Framing) (hst : s.readstate = false) :
    (s.idle rxAvailable).Framing := by
  have hframed := h.framed
  rw [unfinished_of_idle hst] at hframed
  unfold App.idle
  rcases s.receiveByte_cases rxAvailable with hnone | ⟨byte, rest, -, hsome⟩
  · rw [hnone]
    exact h
  · rw [hsome, Option.elim_some, takeHeader]
    split_ifs with hheader
    · refine ⟨?_, fun _ => Nat.succ_pos 4, fun _ => hheader⟩
      have hstore := take_store s.packet (k := 0) (by decide) byte
      have hfirst := hframed.concat byte
      rw [unfinished_of_reading]
      · exact hstore.symm ▸ hfirst
      · rfl
    · refine ⟨?_, fun hread => absurd hread (by rw [hst]; decide),
        fun hread => absurd hread (by rw [hst]; decide)⟩
      rw [unfinished_of_idle]
      · exact hframed.skip (Bool.eq_false_iff.mpr hheader)
      · exact hst

theorem Framing.collect (h : s.Framing) (hst : s.readstate = true)
    (hi : s.i.toNat + 1 < qTupleSize) : (s.collect hi rxAvailable).Framing := by
  have hframed := h.framed
  rw [unfinished_of_reading hst] at hframed
  unfold App.collect
  rcases s.receiveByte_cases rxAvailable with hnone | ⟨byte, rest, -, hsome⟩
  · rw [hnone]
    exact h
  · have hnext : (s.i + 1).toNat = s.i.toNat + 1 := by
      rw [UInt8.toNat_add]
      exact Nat.mod_eq_of_lt (Nat.lt_trans hi (by decide))
    rw [hsome, Option.elim_some]
    refine ⟨?_, fun _ => Nat.lt_of_le_of_lt (Nat.le_of_eq hnext) hi, fun _ => ?_⟩
    · rw [unfinished_of_reading]
      · dsimp only
        rw [hnext, take_store]
        exact hframed.concat byte
      · exact hst
    · have hkeeps := bytes_zero_store s.packet hi byte
      exact (congrArg checkHeader hkeeps).trans (h.header hst)

theorem Framing.process (h : s.Framing) (hst : s.readstate = true)
    (hi : ¬ s.i.toNat + 1 < qTupleSize) :
    s.process.Framing ∧ s.process.received = s.received ∧ s.process.unfinished = [] := by
  have hframed := h.framed
  obtain ⟨rest, hcontents, hlen⟩ := contents_eq s.packet
  have hall : (contents s.packet).take (s.i.toNat + 1) = contents s.packet :=
    List.take_of_length_le (by rw [length_contents]; exact Nat.le_of_not_lt hi)
  rw [unfinished_of_reading hst, hall, hcontents] at hframed
  refine ⟨⟨?_, nofun, nofun⟩, rfl, rfl⟩
  have hdone := hframed.complete (h.header hst) hlen
  rw [← hcontents] at hdone
  exact hdone

theorem Framing.service (h : s.Framing) : (s.service rxAvailable).Framing := by
  unfold App.service
  split_ifs with hst hi
  · exact h.collect hst hi
  · exact (h.process hst hi).1
  · exact h.idle (Bool.eq_false_iff.mpr hst)

/-- After a call, everything is processed that was complete before it. -/
theorem Framing.processed_service (h : s.Framing) :
    (s.service rxAvailable).processed = frames checkHeader 4 s.received := by
  have hall := h.framed.frames_eq
  unfold App.service
  split_ifs with hst hi
  · have hpart : frames checkHeader 4 s.unfinished = [] := by
      obtain ⟨rest, hcontents, hlen⟩ := contents_eq s.packet
      have hlt : s.i.toNat < rest.length := hlen.symm ▸ Nat.lt_of_succ_lt_succ hi
      rw [unfinished_of_reading hst, hcontents, List.take_succ_cons]
      refine frames_of_lt (h.header hst) ?_
      rw [List.length_take, hlen]
      exact Nat.lt_of_le_of_lt (Nat.min_le_left _ _) (hlen ▸ hlt)
    rw [hall, hpart, List.append_nil]
    unfold App.collect
    rcases s.receiveByte_cases rxAvailable with hnone | ⟨byte, rest, -, hsome⟩
    · rw [hnone, Option.elim_none]
    · rw [hsome, Option.elim_some]
  · obtain ⟨hnext, hreceived, hnil⟩ := h.process hst hi
    have hdone := hnext.framed.frames_eq
    rw [hreceived, hnil, frames_nil, List.append_nil] at hdone
    exact hdone.symm
  · have hst' := Bool.eq_false_iff.mpr hst
    rw [hall, unfinished_of_idle hst', frames_nil, List.append_nil]
    unfold App.idle
    rcases s.receiveByte_cases rxAvailable with hnone | ⟨byte, rest, -, hsome⟩
    · rw [hnone, Option.elim_none]
    · rw [hsome, Option.elim_some, takeHeader]
      split_ifs <;> rfl

/-- A call takes bytes off the radio in order. -/
theorem received_service (s : App) (rxAvailable : Bool) :
    (s.service rxAvailable).received ++ (s.service rxAvailable).incoming =
      s.received ++ s.incoming := by
  unfold App.service
  split_ifs with hst hi
  · unfold App.collect
    rcases s.receiveByte_cases rxAvailable with hnone | ⟨byte, rest, hin, hsome⟩
    · rw [hnone, Option.elim_none]
    · rw [hsome, Option.elim_some, hin]
      exact List.append_assoc _ _ _
  · rfl
  · unfold App.idle
    rcases s.receiveByte_cases rxAvailable with hnone | ⟨byte, rest, hin, hsome⟩
    · rw [hnone, Option.elim_none]
    · rw [hsome, Option.elim_some, takeHeader, hin]
      split_ifs <;> exact List.append_assoc _ _ _

theorem sendReport_returns (b : Buffer) (txAvailable : UInt8) :
    ∃ r, b.sendReport txAvailable = some r := by
  unfold Buffer.sendReport
  split_ifs
  · exact ⟨_, rfl⟩
  · exact ⟨_, byteLoop_eq_foldl (Nat.le_of_lt_succ (b.bytesToSend txAvailable).toNat_lt) _ _⟩

/-- Both functions are `service`, and then characters of the report are sent. -/
theorem call_eq (s : App) (c : Call) :
    ∃ report, s.call c = some { s.service c.rxAvailable with report := report } := by
  obtain ⟨r, hr⟩ := sendReport_returns (s.service c.rxAvailable).report c.txAvailable
  refine ⟨r.2, ?_⟩
  unfold call
  cases c.mode with
  | tethered => simp only [usbToRadioService, Buffer.sendReportUSB, hr, Option.map_some]; rfl
  | untethered => simp only [robotRadioService, Buffer.sendReportRadio, hr, Option.map_some]; rfl

theorem Framing.withReport (h : s.Framing) (report : Buffer) :
    Framing { s with report := report } := ⟨h.framed, h.inside, h.header⟩

theorem Framing.calls (h : s.Framing) (cs : List Call) : ∃ t, s.calls cs = some t ∧ t.Framing ∧
    t.received ++ t.incoming = s.received ++ s.incoming := by
  induction cs generalizing s with
  | nil => exact ⟨s, rfl, h, rfl⟩
  | cons c cs ih =>
      obtain ⟨report, hc⟩ := s.call_eq c
      have hservice : (s.service c.rxAvailable).Framing := h.service
      obtain ⟨t, ht, hframing, hstream⟩ := ih (hservice.withReport report)
      refine ⟨t, ?_, hframing, hstream.trans (s.received_service c.rxAvailable)⟩
      rw [App.calls, hc, Option.bind_some]
      exact ht

/-- In the idle state, before the first byte of a stream. -/
def start (i : UInt8) (packet : QTuple) (report : Buffer) (stream : List UInt8) : App where
  readstate := false
  i := i
  packet := packet
  report := report
  incoming := stream
  received := []
  processed := []

theorem framing_start (i : UInt8) (packet : QTuple) (report : Buffer) (stream : List UInt8) :
    (start i packet report stream).Framing := ⟨Framed.nil, nofun, nofun⟩

/-- Whatever the calls find, they return, and after one more call of either function the packets
that have been processed are those of the batch parser. -/
theorem incremental_eq_batch (i : UInt8) (packet : QTuple) (report : Buffer) (stream : List UInt8)
    (cs : List Call) : ∃ t, (start i packet report stream).calls cs = some t ∧
      t.received ++ t.incoming = stream ∧
      ∀ c, ∃ u, t.call c = some u ∧ u.processed = frames checkHeader 4 t.received := by
  obtain ⟨t, ht, hframing, hstream⟩ := (framing_start i packet report stream).calls cs
  refine ⟨t, ht, hstream, fun c => ?_⟩
  obtain ⟨report, hc⟩ := t.call_eq c
  exact ⟨_, hc, hframing.processed_service⟩

end App

end WixelSdk.WirelessSerialPacket
