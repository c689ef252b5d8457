import WixelSdk.Millivolts
import WixelSdk.PacketPrinter

/-!
# The wireless ADC

`wireless_adc_tx.c` sends the readings of six analog inputs in a packet with the serial number of the
Wixel. `wireless_adc_rx.c` prints each packet as a line of decimal numbers, from which the computer
can read the report back.
-/

namespace WixelSdk.WirelessAdc
open RadioQueue PacketPrinter TextLines Transition Adc
open RadioLink (Buf dmaStore frameBytes)

structure AdcReport where
  serialNumber : Vector UInt8 4
  readings : Vector UInt16 6
  deriving DecidableEq

/-! ### The transmitter -/

/-- The ADC registers after the measurement of the supply voltage and of each input. -/
structure Conversions where
  vdd : UInt16
  channel : Fin 6 → UInt16

def Conversions.readings (a : Conversions) : Vector UInt16 6 := Vector.ofFn fun i =>
  ((calibrated a.vdd).adcConvertToMillivolts (adcRead (a.channel i)).toInt16).toUInt16

def lowByte (x : UInt16) : UInt8 := x.toUInt8

def highByte (x : UInt16) : UInt8 := (x >>> 8).toUInt8

/-- The bytes that are written to the packet, the readings with the low byte first. -/
def packetBytes (r : AdcReport) : List UInt8 :=
  16 :: r.serialNumber.toList ++ r.readings.toList.flatMap fun x => [lowByte x, highByte x]

def storeBytes (slot : ℕ) : ℕ → List UInt8 → Queue → Queue
  | _, [], q => q
  | offset, b :: bytes, q => storeBytes slot (offset + 1) bytes (q.storeTx slot offset b)

/-- The queue and lastTx. getMs() returns `now` in the condition and `sent` when lastTx is set, which
is before the readings. -/
def adcToRadioService (param_report_period_ms : Int32) (serialNumber : Vector UInt8 4)
    (q : Queue) (lastTx now sent : UInt16) (a : Conversions) : Queue × UInt16 :=
  if param_report_period_ms ≤ (now - lastTx).toUInt32.toInt32 then
    match q.radioQueueTxCurrentPacket with
    | some slot =>
        ((storeBytes slot 0 (packetBytes ⟨serialNumber, a.readings⟩) q).radioQueueTxSendPacket, sent)
    | none => (q, lastTx)
  else (q, lastTx)

/-! ### The receiver -/

def word (low high : UInt8) : UInt16 := low.toUInt16 + 256 * high.toUInt16

def adcReportOf (p : Buf) : AdcReport where
  serialNumber := Vector.ofFn fun i => p (1 + i)
  readings := Vector.ofFn fun i => word (p (5 + 2 * i)) (p (6 + 2 * i))

/-- `%02X-%02X-%02X-%02X %5u` in its columns -/
def header (r : AdcReport) (time : UInt16) : List (List UInt8) :=
  [hex r.serialNumber[3], text "-", hex r.serialNumber[2], text "-", hex r.serialNumber[1],
    text "-", hex r.serialNumber[0], text " ", decimal 5 time.toNat]

/-- ` %5u` in its columns -/
def reading (x : UInt16) : List (List UInt8) := [text " ", decimal 5 x.toNat]

def columns (r : AdcReport) (time : UInt16) : List (List UInt8) :=
  header r time ++ (r.readings.toList.flatMap reading ++ [text "\r"])

/-- One printf for the serial number and the time, one for each reading, and two putchar. -/
def fields (p : Buf) (time : UInt16) : List (List UInt8) :=
  let r := adcReportOf p
  (header r time).flatten :: (r.readings.toList.map fun x => (reading x).flatten) ++
    [text "\r", text "\n"]

theorem fields_flatten (p : Buf) (time : UInt16) :
    (fields p time).flatten = (columns (adcReportOf p) time).flatten ++ [10] := by
  unfold fields columns
  simp only [List.flatten_append, List.flatten_cons, List.cons_append, List.flatMap_def,
    List.flatten_flatten, List.map_map, List.append_assoc]
  rfl

theorem length_decimal_five (x : UInt16) : (decimal 5 x.toNat).length = 5 := by
  have hlt := x.toNat_lt
  exact length_decimal (by decide) (by omega)

theorem columns_lengths (r : AdcReport) (time : UInt16) :
    (columns r time).map List.length =
      [2, 1, 2, 1, 2, 1, 2, 1, 5] ++ ((List.replicate 6 [1, 5]).flatten ++ [1]) := by
  have hreading : ∀ x, (reading x).map List.length = [1, 5] := by
    intro x
    change [1, (decimal 5 x.toNat).length] = _
    rw [length_decimal_five]
  have hheader : (header r time).map List.length = [2, 1, 2, 1, 2, 1, 2, 1, 5] := by
    change [2, 1, 2, 1, 2, 1, 2, 1, (decimal 5 time.toNat).length] = _
    rw [length_decimal_five]
  have hreadings : r.readings.toList.map (fun x => (reading x).map List.length) =
      List.replicate 6 [1, 5] := by
    rw [List.eq_replicate_iff]
    refine ⟨by rw [List.length_map, Vector.length_toList], fun l hl => ?_⟩
    obtain ⟨x, -, rfl⟩ := List.mem_map.mp hl
    exact hreading x
  rw [columns, List.map_append, List.map_append, hheader, List.map_flatMap, List.flatMap_def,
    hreadings]
  rfl

theorem not_mem_columns (r : AdcReport) (time : UInt16) : 10 ∉ (columns r time).flatten := by
  intro h
  obtain ⟨l, hl, hten⟩ := List.mem_flatten.mp h
  have hblank : (10 : UInt8) ∉ text " " := by decide
  have hdash : (10 : UInt8) ∉ text "-" := by decide
  have hreturn : (10 : UInt8) ∉ text "\r" := by decide
  unfold columns header at hl
  simp only [List.mem_append, List.mem_cons, List.not_mem_nil, or_false, List.mem_flatMap,
    reading] at hl
  rcases hl with (rfl | rfl | rfl | rfl | rfl | rfl | rfl | rfl | rfl) | ⟨x, -, rfl | rfl⟩ | rfl
  all_goals first
    | exact not_mem_hex _ hten
    | exact not_mem_decimal _ _ hten
    | exact hdash hten
    | exact hblank hten
    | exact hreturn hten

/-- The number after a column of a line. -/
def readLine (line : List UInt8) : AdcReport × UInt16 :=
  let column := cut ([2, 1, 2, 1, 2, 1, 2, 1, 5] ++ ((List.replicate 6 [1, 5]).flatten ++ [1])) line
  let number i := UInt16.ofNat (readDecimal (column.getD i []))
  (⟨Vector.ofFn fun i => (readHex (column.getD (6 - 2 * i) [])).headD 0,
    Vector.ofFn fun i => number (10 + 2 * i)⟩, number 8)

theorem readLine_columns (r : AdcReport) (time : UInt16) :
    readLine (columns r time).flatten = (r, time) := by
  have hcut := cut_flatten (columns r time) []
  rw [columns_lengths, List.append_nil] at hcut
  have hserial : ∀ i : Fin 4, (columns r time).getD (6 - 2 * i) [] = hex r.serialNumber[i] := by
    intro i
    match i with
    | 0 | 1 | 2 | 3 => rfl
  have hreading : ∀ i : Fin 6, (columns r time).getD (10 + 2 * i) [] =
      decimal 5 r.readings[i].toNat := by
    intro i
    have hi : i.val < r.readings.toList.length := by
      rw [Vector.length_toList]
      exact i.isLt
    have hindex : 10 + 2 * i.val = (header r time).length + (2 * i.val + 1) := by
      change _ = 9 + (2 * i.val + 1)
      omega
    rw [List.getD_eq_getElem?_getD, columns, hindex, List.getElem?_append_right (Nat.le_add_right _ _),
      Nat.add_sub_cancel_left]
    have hpair := (getElem?_flatMap_pair (fun _ => text " ") (fun x : UInt16 => decimal 5 x.toNat)
      r.readings.toList [text "\r"] hi).2
    unfold reading
    rw [hpair, Vector.getElem_toList]
    rfl
  have htime : (columns r time).getD 8 [] = decimal 5 time.toNat := rfl
  unfold readLine
  simp only [hcut, hserial, hreading, htime, readDecimal_decimal, UInt16.ofNat_toNat]
  have hread : ∀ b, (readHex (hex b)).headD 0 = b := by
    intro b
    have hbytes := readHex_hex [b] []
    rw [List.flatMap_singleton, List.append_nil] at hbytes
    rw [hbytes]
    rfl
  simp only [hread, Fin.getElem_fin, Vector.ofFn_getElem]

def printer : Printer Unit UInt16 UInt16 where
  init := ()
  allowCrcErrors := false
  need := 64
  read _ now := (now, ())
  fields := fields
  Received _ := True
  Good _ := True
  good_zero := trivial
  good_store _ _ _ _ _ := trivial
  fits p time _ := by
    rw [fields_flatten, List.length_append, List.length_flatten, columns_lengths]
    decide
  ends p time := ⟨_, not_mem_columns _ _, fields_flatten p time⟩

instance : DecidablePred printer.Received := fun _ => .isTrue trivial

theorem readLine_body (p : Buf) (time : UInt16) :
    readLine (printer.body p time) = (adcReportOf p, time) := by
  have hbody : printer.body p time = (columns (adcReportOf p) time).flatten := by
    unfold Printer.body
    exact (congrArg List.dropLast (fields_flatten p time)).trans List.dropLast_concat
  rw [hbody, readLine_columns]

/-- The computer reads the reports of the packets from the radio queue in order, with the times when
they were printed. No line is torn, mixed with another or left out, whatever the host and the radio
do meanwhile, as long as the device stays configured. -/
theorem radioToUsbService_reports {serial : ℕ → UInt8} {channel : UInt8} {c : UsbCom.Com}
    {s : Receiver Unit UInt16} (hc : UsbCom.Fresh c)
    (hr : Run (Receiver.step printer serial) (Receiver.Allowed printer serial)
      (.start printer channel c) s) :
    s.usb.com.ep4.overruns = 0 ∧
    printer.text s.radio.history.presented s.shown <+: s.usb.sent ∧
    s.usb.sent <+: printer.text s.radio.history.wanted s.shown ∧
    (lines 10 s.usb.com.ep4.received.flatten).map readLine <+:
      List.zipWith (fun p time => (adcReportOf p, time)) s.radio.history.wanted s.shown := by
  have h := Receiver.invariant_of_run hc hr
  exact ⟨h.usb.isStream.overruns, h.text_prefix.1, h.text_prefix.2,
    h.read_lines fun p time _ => readLine_body p time⟩

def report : AdcReport := ⟨#v[0x69, 0x8B, 0x37, 0x07], #v[226, 226, 1501, 2931, 226, 65535]⟩

def heard (r : AdcReport) : List (Action UInt16) :=
  [.radio (.dma (packetBytes r ++ [0x30, 0xB0])), .radio (.event .rx ⟨true, 0⟩)]

def putText (n : ℕ) : List (Action UInt16) := .next :: .replicate n (.putchar [])

/-- One packet comes from the radio, and a second one while the line for the first is printed. -/
theorem radioToUsbService_reports_one : ∃ s : Receiver Unit UInt16,
    (lines 10 s.usb.com.ep4.received.flatten).map readLine = [(report, 12697)] ∧
    s.usb.sent <+: printer.text s.radio.history.wanted s.shown ∧
    [(report, (12697 : UInt16))] <+:
      List.zipWith (fun p time => (adcReportOf p, time)) s.radio.history.wanted s.shown := by
  have hrun : (exec (Receiver.step printer fun _ => 0) (Receiver.Allowed printer fun _ => 0)
      (.start printer 0 UsbCom.configured)
      (.radio (.event .strobe ⟨true, 0⟩) :: heard report ++ .check 12697 [] :: putText 17 ++
        heard ⟨#v[1, 2, 3, 4], .replicate 6 0⟩ ++ (List.replicate 6 (putText 6)).flatten ++
        putText 1 ++ putText 1 ++ [.next, .service (.packet 0x00 []) 0 [], .hostRead .data])).map
      (fun s => (lines 10 s.usb.com.ep4.received.flatten).map readLine) =
      some [(report, 12697)] := by decide +kernel
  obtain ⟨s, hr, hs⟩ := exists_run_of_exec hrun
  obtain ⟨-, -, htext, hread⟩ := radioToUsbService_reports UsbCom.fresh_configured hr
  rw [hs] at hread
  exact ⟨s, hs, htext, hread⟩

/-! ### From the transmitter to the receiver -/

theorem storeBytes_eq (slot : ℕ) (bytes : List UInt8) (offset : ℕ) (q : Queue) :
    ∃ buf, storeBytes slot offset bytes q =
        { q with radioQueueTxPacket := Function.update q.radioQueueTxPacket slot buf } ∧
      (∀ i < offset, buf i = q.radioQueueTxPacket slot i) ∧
      ∀ i (hi : i < bytes.length), buf (offset + i) = bytes[i] := by
  induction bytes generalizing offset q with
  | nil =>
      refine ⟨q.radioQueueTxPacket slot, ?_, fun _ _ => rfl, fun i hi => absurd hi i.not_lt_zero⟩
      rw [Function.update_eq_self]
      rfl
  | cons b bytes ih =>
      obtain ⟨buf, heq, hold, hnew⟩ := ih (offset + 1) (q.storeTx slot offset b)
      have hslot : (q.storeTx slot offset b).radioQueueTxPacket slot =
          Function.update (q.radioQueueTxPacket slot) offset b := Function.update_self _ _ _
      rw [hslot] at hold
      refine ⟨buf, ?_, fun i hi => ?_, fun i hi => ?_⟩
      · rw [storeBytes, heq, Queue.storeTx, Function.update_idem]
      · rw [hold i (Nat.lt_succ_of_lt hi), Function.update_of_ne (Nat.ne_of_lt hi)]
      · cases i with
        | zero => exact (hold offset offset.lt_succ_self).trans (Function.update_self _ _ _)
        | succ i =>
            have hnext := hnew i (Nat.lt_of_succ_lt_succ hi)
            rw [Nat.add_assoc, Nat.add_comm 1] at hnext
            exact hnext

theorem length_packetBytes (r : AdcReport) : (packetBytes r).length = 17 := by
  have hpairs : ∀ xs : List UInt16,
      (xs.flatMap fun x => [lowByte x, highByte x]).length = 2 * xs.length := by
    intro xs
    induction xs with
    | nil => rfl
    | cons x xs ih =>
        rw [List.flatMap_cons, List.length_append, ih, List.length_cons]
        exact Nat.add_comm _ _
  rw [packetBytes, List.cons_append, List.length_cons, List.length_append, hpairs,
    Vector.length_toList, Vector.length_toList]

theorem word_bytes (x : UInt16) : word (lowByte x) (highByte x) = x := by
  have hx := x.toNat_lt
  apply UInt16.toNat_inj.mp
  have hlow : (lowByte x).toNat = x.toNat % 256 := UInt16.toNat_toUInt8 x
  have hhigh : (highByte x).toNat = x.toNat / 256 % 256 := by
    unfold highByte
    rw [UInt16.toNat_toUInt8, UInt16.toNat_shiftRight, Nat.shiftRight_eq_div_pow]
    rfl
  unfold word
  rw [UInt16.toNat_add, UInt16.toNat_mul, UInt8.toNat_toUInt16, UInt8.toNat_toUInt16, hlow, hhigh]
  have hfactor : (256 : UInt16).toNat = 256 := rfl
  rw [hfactor]
  omega

/-- A packet is stored by the receiver as it was written, with whatever it had in the buffer
behind it. -/
theorem adcReportOf_dmaStore (r : AdcReport) (rest : List UInt8) (old : Buf) :
    adcReportOf (dmaStore (maxPacketSize + 3) (packetBytes r ++ rest) old) = r := by
  have hstored : ∀ (i : ℕ) (b : UInt8), i < maxPacketSize + 3 →
      (packetBytes r ++ rest)[i]? = some b →
      dmaStore (maxPacketSize + 3) (packetBytes r ++ rest) old i = b := by
    intro i b hi hb
    unfold dmaStore
    rw [if_pos hi, hb]
    rfl
  have hbytes : packetBytes r ++ rest = [16] ++ (r.serialNumber.toList ++
      (r.readings.toList.flatMap (fun x => [lowByte x, highByte x]) ++ rest)) := by
    unfold packetBytes
    rw [List.cons_append, List.cons_append, List.append_assoc]
    rfl
  have hserial : ∀ i : Fin 4, (packetBytes r ++ rest)[1 + i.val]? = some r.serialNumber[i] := by
    intro i
    have hi : i.val < r.serialNumber.toList.length := by
      rw [Vector.length_toList]
      exact i.isLt
    rw [hbytes, List.getElem?_append_right (Nat.le_add_right 1 _), List.length_singleton,
      Nat.add_sub_cancel_left, List.getElem?_append_left hi, List.getElem?_eq_getElem hi,
      Vector.getElem_toList]
    rfl
  have hpairs : ∀ i, (packetBytes r ++ rest)[5 + i]? =
      (r.readings.toList.flatMap (fun x => [lowByte x, highByte x]) ++ rest)[i]? := by
    intro i
    have hindex : 5 + i = 1 + (r.serialNumber.toList.length + i) := by
      rw [Vector.length_toList]
      omega
    rw [hbytes, hindex, List.getElem?_append_right (Nat.le_add_right 1 _), List.length_singleton,
      Nat.add_sub_cancel_left, List.getElem?_append_right (Nat.le_add_right _ _),
      Nat.add_sub_cancel_left]
  have hreadings : ∀ i : Fin 6,
      (packetBytes r ++ rest)[5 + 2 * i.val]? = some (lowByte r.readings[i]) ∧
      (packetBytes r ++ rest)[6 + 2 * i.val]? = some (highByte r.readings[i]) := by
    intro i
    have hi : i.val < r.readings.toList.length := by
      rw [Vector.length_toList]
      exact i.isLt
    have hindex : 6 + 2 * i.val = 5 + (2 * i.val + 1) := by omega
    obtain ⟨hlow, hhigh⟩ := getElem?_flatMap_pair lowByte highByte r.readings.toList rest hi
    rw [hindex, hpairs, hpairs, hlow, hhigh, Vector.getElem_toList]
    exact ⟨rfl, rfl⟩
  unfold adcReportOf
  have hword : ∀ i : Fin 6,
      word (dmaStore (maxPacketSize + 3) (packetBytes r ++ rest) old (5 + 2 * i))
        (dmaStore (maxPacketSize + 3) (packetBytes r ++ rest) old (6 + 2 * i)) = r.readings[i] := by
    intro i
    have hi := i.isLt
    have hsize : maxPacketSize + 3 = 22 := rfl
    rw [hstored _ _ (by omega) (hreadings i).1, hstored _ _ (by omega) (hreadings i).2, word_bytes]
  have hbyte : ∀ i : Fin 4,
      dmaStore (maxPacketSize + 3) (packetBytes r ++ rest) old (1 + i) = r.serialNumber[i] := by
    intro i
    have hi := i.isLt
    have hsize : maxPacketSize + 3 = 22 := rfl
    exact hstored _ _ (by omega) (hserial i)
  simp only [hword, hbyte, Fin.getElem_fin, Vector.ofFn_getElem]

/-- The report gets to the receiver as it was measured. It is queued behind the packets that wait,
and the receiver reads it back whatever is behind the packet and whatever was in its buffer. -/
theorem adcToRadioService_received {q : Queue} (hq : q.InRange)
    (hfree : q.radioQueueTxCurrentPacket ≠ none) {param_report_period_ms : Int32}
    {lastTx now : UInt16} (hdue : param_report_period_ms ≤ (now - lastTx).toUInt32.toInt32)
    (serialNumber : Vector UInt8 4) (sent : UInt16) (a : Conversions) :
    ∃ q' buf, adcToRadioService param_report_period_ms serialNumber q lastTx now sent a = (q', sent) ∧
      q'.txPackets = q.txPackets ++ [buf] ∧
      ∀ rest old, adcReportOf (dmaStore (maxPacketSize + 3) (frameBytes buf ++ rest) old) =
        ⟨serialNumber, a.readings⟩ := by
  obtain ⟨buf, heq, -, hnew⟩ := storeBytes_eq q.radioQueueTxMainLoopIndex
    (packetBytes ⟨serialNumber, a.readings⟩) 0 q
  have hcurrent : q.radioQueueTxCurrentPacket = some q.radioQueueTxMainLoopIndex := by
    unfold Queue.radioQueueTxCurrentPacket at hfree ⊢
    split_ifs at hfree ⊢
    · exact absurd rfl hfree
    · rfl
  have hlength := length_packetBytes ⟨serialNumber, a.readings⟩
  have hbytes : frameBytes buf = packetBytes ⟨serialNumber, a.readings⟩ := by
    have hfirst : buf 0 = 16 := hnew 0 (by omega)
    apply List.ext_getElem
    · rw [frameBytes, List.length_map, List.length_range, hfirst, hlength]
      rfl
    · intro i _ hi
      have hbyte := hnew i hi
      rw [Nat.zero_add] at hbyte
      rw [← hbyte]
      simp only [frameBytes, List.getElem_map, List.getElem_range]
  have hsends : adcToRadioService param_report_period_ms serialNumber q lastTx now sent a =
      ((storeBytes q.radioQueueTxMainLoopIndex 0 (packetBytes ⟨serialNumber, a.readings⟩)
        q).radioQueueTxSendPacket, sent) := by
    unfold adcToRadioService
    rw [if_pos hdue, hcurrent]
  refine ⟨_, buf, hsends, ?_, fun rest old => ?_⟩
  · rw [heq]
    have hfull := Queue.next_ne_of_radioQueueTxCurrentPacket hq hfree
    exact Ring.contents_push id _ _ hq.txInterrupt hq.txMain hfull
  · rw [hbytes, adcReportOf_dmaStore]

theorem adcToRadioService_received_report :
    ∃ q' buf, adcToRadioService 20 report.serialNumber (Queue.powerUp.radioQueueInit 0) 65530 14 17
        ⟨0x3000, fun _ => 0x1000⟩ = (q', 17) ∧
      q'.txPackets = (Queue.powerUp.radioQueueInit 0).txPackets ++ [buf] ∧
      ∀ rest old, adcReportOf (dmaStore (maxPacketSize + 3) (frameBytes buf ++ rest) old) =
        ⟨report.serialNumber, Conversions.readings ⟨0x3000, fun _ => 0x1000⟩⟩ :=
  adcToRadioService_received (Queue.consistent_radioQueueInit 0).toInRange (by decide) (by decide)
    report.serialNumber 17 ⟨0x3000, fun _ => 0x1000⟩

end WixelSdk.WirelessAdc
