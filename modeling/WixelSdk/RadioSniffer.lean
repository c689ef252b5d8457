import WixelSdk.PacketPrinter

/-!
# The radio sniffer

`radio_sniffer.c` prints every packet that it hears, also those with a bad CRC: a number, the packet
as text and in hexadecimal, the CRC, the signal strength, and what the packet is for the radio link.
-/

namespace WixelSdk.RadioSniffer
open RadioQueue PacketPrinter TextLines Transition
open RadioLink (Buf dmaStore frameBytes)

abbrev PktCount := {n : UInt16 // n ≤ 999}

def PktCount.next (n : PktCount) : PktCount :=
  if h : n.val + 1 > 999 then ⟨0, by decide⟩ else ⟨n.val + 1, UInt16.not_lt.mp h⟩

/-- The value in the high bits of the byte after the packet, in dBm. -/
def rssi (p : Buf) : ℤ := (p ((p 0).toNat + 1)).toInt8.toInt.tdiv 2 - 71

def quality (p : Buf) : UInt8 := p ((p 0).toNat + 2)

def crcPassed (p : Buf) : Bool := quality p &&& 0x80 != 0

def lqi (p : Buf) : UInt8 := quality p &&& 0x7F

def isprint (b : UInt8) : Bool := 32 ≤ b && b ≤ 126

/-- The bytes after the length, as text. -/
def asText (p : Buf) : List UInt8 := (frameBytes p).tail.map fun b => if isprint b then b else 63

def typeName (p : Buf) : List UInt8 :=
  match (p 1 >>> 6 &&& 3).toNat with
  | 0 => text "PING  "
  | 1 => text "NAK   "
  | 2 => text "ACK   "
  | _ => text "RESET "

def nibbleToAscii (nibble : UInt8) : UInt8 :=
  if nibble &&& 0xF ≤ 9 then 48 + (nibble &&& 0xF) else 65 + ((nibble &&& 0xF) - 0xA)

def columns (p : Buf) (n : PktCount) : List (List UInt8) :=
  [decimal 3 n.val.toNat, text "> ",
    text "\"" ++ asText p ++ text "\"" ++ .replicate (19 - (p 0).toNat) 32, text " ",
    if crcPassed p then text " " else text "!", text " ",
    text "R:", integer 4 (rssi p), text " ", text "L:", decimal 4 (lqi p).toNat, text " ",
    text "s:", decimal 1 (p 1 &&& 1).toNat, text " ", typeName p,
    text "p:", [nibbleToAscii (p 1 >>> 1 &&& 0xF)], text " "]

/-- The columns, which come from one or several calls of printf and putchar each, and two characters
for every byte. -/
def fields (p : Buf) (n : PktCount) : List (List UInt8) :=
  columns p n ++ ((frameBytes p).map fun b : UInt8 => [nibbleToAscii (b >>> 4), nibbleToAscii b]) ++
    [text "\r", text "\n"]

def lineOf (p : Buf) (n : PktCount) : List UInt8 :=
  (columns p n).flatten ++ ((frameBytes p).flatMap hex ++ text "\r")

theorem nibbles_eq_hex (b : UInt8) : [nibbleToAscii (b >>> 4), nibbleToAscii b] = hex b := by
  revert b
  apply RadioLink.forall_byte
  decide +kernel

theorem fields_flatten (p : Buf) (n : PktCount) : (fields p n).flatten = lineOf p n ++ [10] := by
  unfold fields lineOf
  simp only [nibbles_eq_hex, List.flatten_append, List.append_assoc]
  rfl

/-! ### The columns -/

theorem rssi_range (p : Buf) : -135 ≤ rssi p ∧ rssi p ≤ -8 := by
  unfold rssi
  generalize p ((p 0).toNat + 1) = b
  revert b
  apply RadioLink.forall_byte
  decide +kernel

theorem length_asText (p : Buf) : (asText p).length = (p 0).toNat := by
  rw [asText, List.length_map, List.length_tail, frameBytes, List.length_map, List.length_range]
  rfl

theorem length_typeName (p : Buf) : (typeName p).length = 6 := by
  unfold typeName
  split <;> rfl

def widths : List ℕ := [3, 2, 21, 1, 1, 1, 2, 4, 1, 2, 4, 1, 2, 1, 1, 6, 2, 1, 1]

theorem columns_lengths {p : Buf} (hp : p 0 ≤ 19) (n : PktCount) :
    (columns p n).map List.length = widths := by
  have hcount : (decimal 3 n.val.toNat).length = 3 := by
    have hn := UInt16.le_iff_toNat_le.mp n.property
    exact length_decimal (by decide) (Nat.lt_of_le_of_lt hn (by decide))
  have htext : (text "\"" ++ asText p ++ text "\"" ++ List.replicate (19 - (p 0).toNat) 32).length =
      21 := by
    have hlen := UInt8.le_iff_toNat_le.mp hp
    have hmax : (19 : UInt8).toNat = 19 := rfl
    have hquote : (text "\"").length = 1 := rfl
    rw [List.length_append, List.length_append, List.length_append, hquote, length_asText,
      List.length_replicate]
    omega
  have hcrc : (if crcPassed p then text " " else text "!").length = 1 := by
    split <;> rfl
  have hrssi : (integer 4 (rssi p)).length = 4 := by
    have hrange := rssi_range p
    exact length_integer_neg (by omega) (by decide) (by omega)
  have hlqi : (decimal 4 (lqi p).toNat).length = 4 := by
    have hlt := (lqi p).toNat_lt
    exact length_decimal (by decide) (by omega)
  have hseq : (decimal 1 (p 1 &&& 1).toNat).length = 1 := by
    have hle : (p 1 &&& 1).toNat ≤ 1 := by
      rw [UInt8.toNat_and]
      exact Nat.and_le_right
    exact length_decimal (by decide) (by omega)
  unfold columns widths
  simp only [List.map_cons, hcount, htext, hcrc, hrssi, hlqi, hseq, length_typeName]
  rfl

theorem not_mem_asText (p : Buf) : 10 ∉ asText p := by
  intro h
  obtain ⟨b, -, hb⟩ := List.mem_map.mp h
  split at hb
  · next hprint =>
      rw [hb] at hprint
      cases hprint
  · cases hb

theorem not_mem_columns (p : Buf) (n : PktCount) : 10 ∉ (columns p n).flatten := by
  have htext : 10 ∉ text "\"" ++ asText p ++ text "\"" ++ List.replicate (19 - (p 0).toNat) 32 := by
    simp only [List.mem_append, not_or]
    refine ⟨⟨⟨by decide, not_mem_asText p⟩, by decide⟩, fun h => ?_⟩
    cases List.eq_of_mem_replicate h
  have hcrc : 10 ∉ if crcPassed p then text " " else text "!" := by
    split <;> decide
  have htype : 10 ∉ typeName p := by
    unfold typeName
    split <;> decide
  have hnibble : ∀ b, 10 ∉ [nibbleToAscii b] := by
    apply RadioLink.forall_byte
    decide +kernel
  intro h
  obtain ⟨l, hl, hten⟩ := List.mem_flatten.mp h
  simp only [columns, List.mem_cons, List.not_mem_nil, or_false] at hl
  rcases hl with rfl | rfl | rfl | rfl | rfl | rfl | rfl | rfl | rfl | rfl | rfl | rfl | rfl | rfl |
    rfl | rfl | rfl | rfl | rfl
  all_goals first
    | exact not_mem_decimal _ _ hten
    | exact not_mem_integer _ _ hten
    | exact htext hten
    | exact hcrc hten
    | exact htype hten
    | exact hnibble _ hten
    | exact absurd hten (by decide)

theorem not_mem_lineOf (p : Buf) (n : PktCount) : 10 ∉ lineOf p n := by
  intro h
  rcases List.mem_append.mp h with hcolumns | hrest
  · exact not_mem_columns p n hcolumns
  · rcases List.mem_append.mp hrest with hhex | hreturn
    · obtain ⟨b, -, hb⟩ := List.mem_flatMap.mp hhex
      exact not_mem_hex b hb
    · revert hreturn
      decide

/-! ### Reading a line -/

structure Sniffed where
  count : ℕ
  crcPassed : Bool
  rssi : ℤ
  lqi : ℕ
  bytes : List UInt8
  deriving DecidableEq

def sniffed (p : Buf) (count : ℕ) : Sniffed where
  count := count
  crcPassed := crcPassed p
  rssi := rssi p
  lqi := (lqi p).toNat
  bytes := frameBytes p

def readLine (line : List UInt8) : Sniffed :=
  let column := cut widths line
  { count := readDecimal (column.getD 0 [])
    crcPassed := column.getD 4 [] == [32]
    rssi := readInteger (column.getD 7 [])
    lqi := readDecimal (column.getD 10 [])
    bytes := readHex (line.drop widths.sum) }

theorem readLine_lineOf {p : Buf} (hp : p 0 ≤ 19) (n : PktCount) :
    readLine (lineOf p n) = sniffed p n.val.toNat := by
  have hlengths := columns_lengths hp n
  have hcut : cut widths (lineOf p n) = columns p n := by
    rw [← hlengths]
    exact cut_flatten _ _
  have hrest : (lineOf p n).drop widths.sum = (frameBytes p).flatMap hex ++ text "\r" := by
    apply List.drop_left'
    rw [List.length_flatten, hlengths]
  have hbytes : readHex ((frameBytes p).flatMap hex ++ text "\r") = frameBytes p :=
    (readHex_hex _ _).trans (List.append_nil _)
  have hcrc : ((if crcPassed p then text " " else text "!") == [32]) = crcPassed p := by
    cases crcPassed p <;> decide
  unfold readLine
  rw [hcut, hrest, hbytes]
  simp only [columns, List.getD_cons_zero, List.getD_cons_succ, readDecimal_decimal,
    readInteger_integer, hcrc]
  rfl

/-! ### The program -/

theorem length_lineOf {p : Buf} (hp : p 0 ≤ 19) (n : PktCount) :
    (lineOf p n).length = 60 + 2 * (p 0).toNat := by
  have hhex : ∀ bytes : List UInt8, (bytes.flatMap hex).length = 2 * bytes.length := by
    intro bytes
    induction bytes with
    | nil => rfl
    | cons b bytes ih =>
        rw [List.flatMap_cons, List.length_append, ih, List.length_cons]
        exact Nat.add_comm _ _
  have hframe : (frameBytes p).length = (p 0).toNat + 1 := by
    rw [frameBytes, List.length_map, List.length_range]
  have hsum : widths.sum = 57 := rfl
  have hreturn : (text "\r").length = 1 := rfl
  rw [lineOf, List.length_append, List.length_append, List.length_flatten, columns_lengths hp,
    hhex, hframe, hsum, hreturn]
  omega

/-- The radio drops packets that are longer than PKTLEN. -/
def printer : Printer PktCount Unit PktCount where
  init := ⟨0, by decide⟩
  allowCrcErrors := true
  need := 128
  read n _ := (n, n.next)
  fields := fields
  Received bytes := bytes.headD 0 ≤ 19
  Good p := p 0 ≤ 19
  good_zero := by decide
  good_store lenl bytes buf hbytes hbuf := by
    unfold dmaStore
    split
    · cases bytes with
      | nil => exact hbuf
      | cons b bytes => exact hbytes
    · exact hbuf
  fits p n hp := by
    have hlen := UInt8.le_iff_toNat_le.mp hp
    have hmax : (19 : UInt8).toNat = 19 := rfl
    have hneed : (128 : UInt8).toNat = 128 := rfl
    rw [fields_flatten, List.length_append, length_lineOf hp, List.length_singleton]
    omega
  ends p n := ⟨_, not_mem_lineOf p n, fields_flatten p n⟩

instance : DecidablePred printer.Received := fun bytes =>
  inferInstanceAs (Decidable (bytes.headD 0 ≤ 19))

theorem PktCount.next_toNat {n : PktCount} {k : ℕ} (h : n.val.toNat = k % 1000) :
    n.next.val.toNat = (k + 1) % 1000 := by
  have hsum : (n.val + 1).toNat = n.val.toNat + 1 := by
    rw [UInt16.toNat_add, UInt16.toNat_one, Nat.mod_eq_of_lt (by omega)]
  have hmax : (999 : UInt16).toNat = 999 := rfl
  unfold PktCount.next
  split
  · next hwrap =>
      rw [gt_iff_lt, UInt16.lt_iff_toNat_lt, hsum] at hwrap
      change 0 = _
      omega
  · next hkeep =>
      rw [gt_iff_lt, UInt16.lt_iff_toNat_lt, hsum] at hkeep
      change (n.val + 1).toNat = _
      omega

/-- The k-th line that the computer reads shows the k-th packet with data that was heard while fewer
than two were waiting, byte for byte, also if its CRC is bad, and the number of the line, as long as
the device stays configured. -/
theorem printPacket_sniffs {serial : ℕ → UInt8} {channel : UInt8} {c : UsbCom.Com}
    {s : Receiver PktCount PktCount} (hc : UsbCom.Fresh c)
    (hr : Run (Receiver.step printer serial) (Receiver.Allowed printer serial)
      (.start printer channel c) s) :
    s.usb.com.ep4.overruns = 0 ∧
    (∀ p crcPassed allowed owned,
      QueueEvent.received p crcPassed allowed owned ∈ s.radio.history → allowed = true) ∧
    ∀ k line, (lines 10 s.usb.com.ep4.received.flatten)[k]? = some line →
      ∃ p, s.radio.history.wanted[k]? = some p ∧ readLine line = sniffed p (k % 1000) := by
  have h := Receiver.invariant_of_run hc hr
  have hcount : s.vars.val.toNat = s.shown.length % 1000 ∧
      ∀ k n, s.shown[k]? = some n → n.val.toNat = k % 1000 := by
    refine Receiver.shown_of_run (R := fun v xs => v.val.toNat = xs.length % 1000 ∧
      ∀ k n, xs[k]? = some n → n.val.toNat = k % 1000) ⟨rfl, fun k n hn => by cases hn⟩ ?_ hr
    rintro v xs i ⟨hv, hxs⟩
    refine ⟨?_, fun k n hn => ?_⟩
    · rw [List.length_append]
      exact PktCount.next_toNat hv
    · rw [List.getElem?_append] at hn
      split at hn
      · exact hxs k n hn
      · next hge =>
          have hk : k = xs.length := by
            have hlt := (List.getElem?_eq_some_iff.mp hn).1
            rw [List.length_singleton] at hlt
            omega
          rw [hk, Nat.sub_self] at hn
          rw [hk, ← hv]
          exact congrArg (fun n : PktCount => n.val.toNat) (Option.some.inj hn).symm
  refine ⟨h.usb.isStream.overruns, (Receiver.allows_of_run hr).received, fun k line hline => ?_⟩
  have hbody : ∀ p n, printer.Good p → readLine (printer.body p n) = sniffed p n.val.toNat := by
    intro p n hp
    have hline : printer.body p n = lineOf p n :=
      (congrArg List.dropLast (fields_flatten p n)).trans List.dropLast_concat
    rw [hline, readLine_lineOf hp]
  obtain ⟨rest, hread⟩ := h.read_lines hbody
  have hk : ((lines 10 s.usb.com.ep4.received.flatten).map readLine ++ rest)[k]? =
      some (readLine line) := by
    have hlt := (List.getElem?_eq_some_iff.mp hline).1
    rw [List.getElem?_append_left (by rwa [List.length_map]), List.getElem?_map, hline]
    rfl
  rw [hread] at hk
  obtain ⟨p, n, hp, hn, heq⟩ := List.getElem?_zipWith_eq_some.mp hk
  refine ⟨p, hp, ?_⟩
  rw [← heq, hcount.2 k n hn]

def putText (n : ℕ) : List (Action Unit) := .next :: .replicate n (.putchar [])

/-- An acknowledgement with a bad CRC and an end of line in its payload. -/
theorem printPacket_sniffs_ack : ∃ s : Receiver PktCount PktCount,
    (lines 10 s.usb.com.ep4.received.flatten).map readLine =
      [⟨0, false, -79, 47, [4, 0x8D, 72, 105, 10]⟩] ∧
    ∃ p, s.radio.history.wanted[0]? = some p ∧
      sniffed p 0 = ⟨0, false, -79, 47, [4, 0x8D, 72, 105, 10]⟩ := by
  have hrun : (exec (Receiver.step printer fun _ => 0) (Receiver.Allowed printer fun _ => 0)
      (.start printer 0 UsbCom.configured)
      ([.radio (.event .strobe ⟨true, 0⟩), .radio (.dma [4, 0x8D, 72, 105, 10, 0xF0, 0x2F]),
        .radio (.event .rx ⟨false, 0⟩), .check () []] ++
        widths.flatMap putText ++ (List.replicate 5 (putText 2)).flatten ++ putText 1 ++
        putText 1 ++ [.next, .service (.packet 0x00 []) 0 [], .hostRead .data, .hostRead .data])).map
      (fun s => (lines 10 s.usb.com.ep4.received.flatten).map readLine) =
      some [⟨0, false, -79, 47, [4, 0x8D, 72, 105, 10]⟩] := by decide +kernel
  obtain ⟨s, hr, hs⟩ := exists_run_of_exec hrun
  obtain ⟨line, hline, hread⟩ := List.map_eq_singleton_iff.mp hs
  obtain ⟨-, -, hlines⟩ := printPacket_sniffs UsbCom.fresh_configured hr
  obtain ⟨p, hp, hsniffed⟩ := hlines 0 line (by rw [hline]; rfl)
  exact ⟨s, hs, p, hp, hsniffed.symm.trans hread⟩

end WixelSdk.RadioSniffer
