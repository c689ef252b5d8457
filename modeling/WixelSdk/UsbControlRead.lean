import WixelSdk.UsbForget
import Mathlib.Data.List.TakeWhile

/-!
# Control reads

The packets that a control read sends, read off the events of endpoint 0: a write to USBCS0 with
INPKT_RDY sends the bytes written to the FIFO since the last one. `pending` are the packets that the
current control read still has to send. A call of usbPoll that does not interrupt the transfer sends
the first of them, if endpoint 0 is ready for it; after an interruption no byte is written before
the next SETUP packet, and what is written after it does not depend on the old transfer.
-/

namespace WixelSdk.Usb

namespace Ep0Event

def isSetup : Ep0Event → Bool
  | .setup _ => true
  | _ => false

def byte? : Ep0Event → Option UInt8
  | .usbf0 byte => some byte
  | _ => none

/-- A write to USBCS0 that sends nothing. -/
def isIdle : Ep0Event → Bool
  | .usbcs0 _ value => !bit value 1
  | _ => false

end Ep0Event

structure Packet where
  bytes : List UInt8
  dataEnd : Bool
  deriving DecidableEq, Repr

/-- The packets sent, given the bytes already in the FIFO. Bit 1 is INPKT_RDY, bit 3 DATA_END. -/
def packetsFrom : List UInt8 → List Ep0Event → List Packet
  | _, [] => []
  | loaded, .usbf0 byte :: log => packetsFrom (loaded ++ [byte]) log
  | loaded, .usbcs0 usbindex value :: log =>
      if usbindex = 0 ∧ bit value 1 then ⟨loaded, bit value 3⟩ :: packetsFrom [] log
      else packetsFrom loaded log
  | loaded, .setup _ :: log => packetsFrom loaded log

def packets (log : List Ep0Event) : List Packet := packetsFrom [] log

def written (log : List Ep0Event) : List UInt8 := log.filterMap Ep0Event.byte?

def untilSetup (log : List Ep0Event) : List Ep0Event := log.takeWhile fun e => !e.isSetup

/-- The events between the first SETUP packet and the next one. -/
def transferLog (log : List Ep0Event) : List Ep0Event :=
  untilSetup ((log.dropWhile fun e => !e.isSetup).drop 1)

/-! ### Logs -/

section Logs

variable {loaded bytes : List UInt8} {log es : List Ep0Event}

theorem packetsFrom_bytes : packetsFrom loaded (bytes.map .usbf0 ++ es) =
    packetsFrom (loaded ++ bytes) es := by
  induction bytes generalizing loaded with
  | nil => rw [List.map_nil, List.nil_append, List.append_nil]
  | cons byte bytes ih =>
      simp only [List.map_cons, List.cons_append, packetsFrom]
      rw [ih, List.append_assoc, List.singleton_append]

theorem packetsFrom_idle (h : ∀ e ∈ log, e.isIdle = true) :
    packetsFrom loaded (log ++ es) = packetsFrom loaded es := by
  induction log with
  | nil => rfl
  | cons e log ih =>
      obtain ⟨he, hlog⟩ := List.forall_mem_cons.mp h
      cases e with
      | setup p => cases he
      | usbf0 byte => cases he
      | usbcs0 usbindex value =>
          have hb : ¬ (usbindex = 0 ∧ bit value 1 = true) := by
            rintro ⟨-, hb⟩
            simp only [Ep0Event.isIdle, hb, Bool.not_true, Bool.false_eq_true] at he
          rw [List.cons_append, packetsFrom, if_neg hb]
          exact ih hlog

theorem written_append : written (log ++ es) = written log ++ written es := List.filterMap_append

theorem written_bytes : written (bytes.map .usbf0) = bytes := by
  induction bytes with
  | nil => rfl
  | cons byte bytes ih => exact congrArg (byte :: ·) ih

theorem written_idle (h : ∀ e ∈ log, e.isIdle = true) : written log = [] := by
  apply List.filterMap_eq_nil_iff.mpr
  intro e he
  cases e with
  | usbf0 byte => cases h _ he
  | _ => rfl

theorem untilSetup_append (h : ∀ e ∈ log, e.isSetup = false) :
    untilSetup (log ++ es) = log ++ untilSetup es :=
  List.takeWhile_append_of_pos fun e he => by rw [h e he]; rfl

theorem isSetup_of_isIdle (h : ∀ e ∈ log, e.isIdle = true) : ∀ e ∈ log, e.isSetup = false := by
  intro e he
  cases e with
  | setup p => cases h _ he
  | _ => rfl

theorem transferLog_cons (h : ∀ e ∈ log, e.isSetup = false) (p : SetupPacket) :
    transferLog (log ++ .setup p :: es) = untilSetup es := by
  have hd : (log ++ Ep0Event.setup p :: es).dropWhile (fun e => !e.isSetup) = .setup p :: es := by
    rw [List.dropWhile_append_of_pos fun e he => by rw [h e he]; rfl]
    rfl
  rw [transferLog, hd, List.drop_one, List.tail_cons]

theorem flagLog_idle (r : Readings) : ∀ e ∈ Device.flagLog r, e.isIdle = true := by
  unfold Device.flagLog
  cases r.setupEnd <;> cases r.sentStall <;> decide

end Logs

/-! ### The packets of a control read -/

namespace Device

variable {ρ δ : Type*} {D : ClassDriver ρ δ} {u v : Device ρ δ}

theorem bytesAt_congr (h : v.xdata = u.xdata) (p : Pointer ρ) (n : ℕ) :
    v.bytesAt D p n = u.bytesAt D p n := by
  unfold bytesAt load
  rw [h]

theorem length_bytesAt (p : Pointer ρ) (n : ℕ) : (u.bytesAt D p n).length = n := by
  rw [bytesAt, List.length_map, List.length_range]

theorem bytesAt_add (p : Pointer ρ) (m n : ℕ) :
    u.bytesAt D p (m + n) = u.bytesAt D p m ++ u.bytesAt D (p.add m) n := by
  simp only [bytesAt, List.range_add, List.map_append, List.map_map, Pointer.add_add]
  rfl

/-- Full packets and a last one of less than 32 bytes. -/
def readPackets (D : ClassDriver ρ δ) (u : Device ρ δ) (n : ℕ) (source : Pointer ρ) : List Packet :=
  (List.range (n / 32)).map (fun i => ⟨u.bytesAt D (source.add (32 * i)) 32, false⟩) ++
    [⟨u.bytesAt D (source.add (32 * (n / 32))) (n % 32), true⟩]

theorem readPackets_short {n : ℕ} (hn : n < 32) (source : Pointer ρ) :
    u.readPackets D n source = [⟨u.bytesAt D source n, true⟩] := by
  rw [readPackets, Nat.div_eq_of_lt hn, Nat.mod_eq_of_lt hn]
  rfl

theorem readPackets_long {n : ℕ} (hn : 32 ≤ n) (source : Pointer ρ) :
    u.readPackets D n source = ⟨u.bytesAt D source 32, false⟩ ::
      u.readPackets D (n - 32) (source.add 32) := by
  obtain ⟨m, rfl⟩ := Nat.exists_eq_add_of_le hn
  have hdiv : (32 + m) / 32 = m / 32 + 1 := by omega
  have hmod : (32 + m) % 32 = m % 32 := by omega
  have hnext : ∀ i, (source.add 32).add (32 * i) = source.add (32 * (i + 1)) := by
    intro i
    rw [Pointer.add_add]
    congr 1
    omega
  simp only [readPackets, Nat.add_sub_cancel_left, hdiv, hmod, hnext, List.range_succ_eq_map,
    List.map_cons, List.map_map, List.cons_append]
  rfl

theorem readPackets_congr (h : v.xdata = u.xdata) (n : ℕ) (source : Pointer ρ) :
    v.readPackets D n source = u.readPackets D n source := by
  simp only [readPackets, bytesAt_congr h]

theorem readPackets_bytes (n k : ℕ) (source : Pointer ρ) :
    ((u.readPackets D n source).take k).flatMap Packet.bytes =
      (u.bytesAt D source n).take (32 * k) := by
  induction k generalizing n source with
  | zero => rw [Nat.mul_zero, List.take_zero, List.take_zero, List.flatMap_nil]
  | succ k ih =>
      by_cases hn : n < 32
      · have hlen : (u.bytesAt D source n).length ≤ 32 * (k + 1) := by
          rw [length_bytesAt]
          omega
        rw [readPackets_short hn, List.take_succ_cons, List.take_nil, List.flatMap_singleton,
          List.take_of_length_le hlen]
      · obtain ⟨m, rfl⟩ := Nat.exists_eq_add_of_le (Nat.not_lt.mp hn)
        have hlen : (u.bytesAt D source 32).length = 32 := length_bytesAt _ _
        have hfull : (u.bytesAt D source 32).take (32 + 32 * k) = u.bytesAt D source 32 :=
          List.take_of_length_le (by omega)
        rw [readPackets_long (Nat.not_lt.mp hn), List.take_succ_cons, List.flatMap_cons, ih,
          Nat.add_sub_cancel_left, bytesAt_add, Nat.mul_succ, Nat.add_comm (32 * k),
          List.take_append, hlen, Nat.add_sub_cancel_left, hfull]

def pending (D : ClassDriver ρ δ) (u : Device ρ δ) : List Packet :=
  if u.controlTransferState = .read then
    u.readPackets D u.controlTransferBytesLeft u.controlTransferPointer
  else []

theorem pending_congr (hs : v.controlTransferState = u.controlTransferState)
    (hl : v.controlTransferBytesLeft = u.controlTransferBytesLeft)
    (hp : v.controlTransferPointer = u.controlTransferPointer) (hx : v.xdata = u.xdata) :
    v.pending D = u.pending D := by
  unfold pending
  rw [hs, hl, hp, readPackets_congr hx]

/-- The step from `u` to `x` sends the next `k` packets. -/
structure Sends (D : ClassDriver ρ δ) (u : Device ρ δ) (k : ℕ) (x : Ep0 ρ δ) : Prop where
  pending : x.1.pending D = (u.pending D).drop k
  packets : ∀ es, Usb.packets (x.2 ++ es) = (u.pending D).take k ++ Usb.packets es
  written : Usb.written x.2 = ((u.pending D).take k).flatMap Packet.bytes
  noSetup : ∀ e ∈ x.2, e.isSetup = false
  state : x.1.controlTransferState ≠ .write

namespace Sends

variable {k l : ℕ} {x y : Ep0 ρ δ}

theorem idle {log : List Ep0Event} (hp : v.pending D = u.pending D)
    (hs : v.controlTransferState ≠ .write) (hlog : ∀ e ∈ log, e.isIdle = true) :
    Sends D u 0 (v, log) where
  pending := hp
  packets _ := packetsFrom_idle hlog
  written := written_idle hlog
  noSetup := isSetup_of_isIdle hlog
  state := hs

theorem trans (hx : Sends D u k x) (hy : Sends D x.1 l y) :
    Sends D u (k + l) (y.1, x.2 ++ y.2) where
  pending := by rw [hy.pending, hx.pending, List.drop_drop]
  packets es := by
    rw [List.append_assoc, hx.packets, hy.packets, hx.pending, List.take_add, List.append_assoc]
  written := by
    rw [written_append, hx.written, hy.written, hx.pending, List.take_add, List.flatMap_append]
  noSetup e he := by
    rcases List.mem_append.mp he with he | he
    · exact hx.noSetup e he
    · exact hy.noSetup e he
  state := hy.state

end Sends

variable (D) in
theorem sends_packet (last : Bool) {bytes : List UInt8} {rest : List Packet}
    (hu : u.pending D = ⟨bytes, last⟩ :: rest) (hv : v.pending D = rest)
    (hs : v.controlTransferState ≠ .write) :
    Sends D u 1 (v, bytes.map .usbf0 ++ [.usbcs0 0 (if last then 0x0A else 0x02)]) where
  pending := by rw [hv, hu, List.drop_succ_cons, List.drop_zero]
  packets es := by
    rw [packets, List.append_assoc, packetsFrom_bytes, hu]
    cases last <;> rfl
  written := by
    have hc : written [Ep0Event.usbcs0 0 (if last then 0x0A else 0x02)] = [] := rfl
    rw [written_append, written_bytes, hc, hu, List.take_succ_cons, List.take_zero,
      List.flatMap_singleton, List.append_nil]
  noSetup e he := by
    rcases List.mem_append.mp he with he | he
    · obtain ⟨byte, -, rfl⟩ := List.mem_map.mp he
      rfl
    · rw [List.mem_singleton.mp he]
      rfl
  state := hs

variable {r : Readings}

theorem inPacket_sends (hi : u.usbindex = 0) (hs : u.controlTransferState ≠ .write) :
    Sends D u (if r.inpktRdy then 0 else 1) (u.inPacket D r) := by
  unfold inPacket
  by_cases hr : r.inpktRdy = true
  · have hn : ¬ (r.inpktRdy = false ∧ u.controlTransferState = .read) := by simp [hr]
    rw [if_pos hr, if_neg hn]
    exact .idle rfl hs (by simp)
  · rw [if_neg hr]
    by_cases hread : u.controlTransferState = .read
    · have hpend : u.pending D =
          u.readPackets D u.controlTransferBytesLeft u.controlTransferPointer := if_pos hread
      rw [if_pos ⟨Bool.eq_false_iff.mpr hr, hread⟩, hi]
      by_cases hl : u.controlTransferBytesLeft < 32
      · rw [readPackets_short hl] at hpend
        have hlast : u.controlTransferBytesLeft < usbEp0PacketSize := hl
        simp only [if_pos hlast]
        exact sends_packet D true hpend rfl (by simp)
      · rw [readPackets_long (Nat.not_lt.mp hl)] at hpend
        have hlast : ¬ u.controlTransferBytesLeft < usbEp0PacketSize := hl
        simp only [if_neg hlast]
        exact sends_packet D false hpend (if_pos rfl) (by simp)
    · have hn : ¬ (r.inpktRdy = false ∧ u.controlTransferState = .read) := fun h => hread h.2
      have hpend : u.pending D = [] := if_neg hread
      rw [if_neg hn]
      refine ⟨?_, ?_, ?_, ?_, hs⟩ <;> simp [hpend, written]

end Device

namespace Readings

variable (r : Readings)

def inReady : Bool := r.ep0 && !r.inpktRdy

/-- A bus reset, SETUP_END, SENT_STALL or a packet of 8 bytes is seen. -/
def interrupts : Bool :=
  r.usbPowerPresent &&
    (r.rstif || r.ep0if && (r.setupEnd || r.sentStall || r.outpktRdy && decide (r.usbcnt0 = 8)))

theorem interrupts_of_ep0 (h : r.ep0 = true) :
    r.interrupts = (r.aborts || r.outpktRdy && decide (r.usbcnt0 = 8)) := by
  obtain ⟨hp, he⟩ := Bool.and_eq_true_iff.mp h
  simp only [interrupts, aborts, hp, he, Bool.true_and, Bool.or_assoc]

theorem interrupts_of_not_ep0 (h : r.ep0 = false) :
    r.interrupts = (r.usbPowerPresent && r.rstif) := by
  unfold ep0 at h
  unfold interrupts
  cases hp : r.usbPowerPresent
  · rfl
  · rw [hp, Bool.true_and] at h
    rw [h, Bool.false_and, Bool.or_false]

end Readings

namespace Device

variable {ρ δ : Type*} {D : ClassDriver ρ δ} {u v : Device ρ δ} {r : Readings}

/-- No byte is written and no packet sent before the next SETUP packet. -/
structure Ended (x : Ep0 ρ δ) : Prop where
  log : ∀ e ∈ untilSetup x.2, e.isIdle = true
  state : (∀ e ∈ x.2, e.isSetup = false) → x.1.controlTransferState ≠ .read

theorem Ended.trans {x y : Ep0 ρ δ} (hx : Ended x)
    (hy : x.1.controlTransferState ≠ .read → Ended y) : Ended (y.1, x.2 ++ y.2) := by
  by_cases hset : ∀ e ∈ x.2, e.isSetup = false
  · have hy' := hy (hx.state hset)
    have hfst : untilSetup x.2 = x.2 :=
      List.takeWhile_eq_self_iff.mpr fun e he => by rw [hset e he]; rfl
    refine ⟨?_, fun hall => hy'.state fun e he => hall e (List.mem_append_right _ he)⟩
    intro e he
    rw [untilSetup_append hset] at he
    rcases List.mem_append.mp he with he | he
    · exact hx.log e (hfst.symm ▸ he)
    · exact hy'.log e he
  · refine ⟨?_, fun hall => absurd (fun e he => hall e (List.mem_append_left _ he)) hset⟩
    have hlen : (untilSetup x.2).length ≠ x.2.length := by
      intro hlen
      have heq : untilSetup x.2 = x.2 := (List.takeWhile_prefix _).eq_of_length hlen
      apply hset
      intro e he
      have hb := List.takeWhile_eq_self_iff.mp heq e he
      simpa only [Bool.not_eq_true'] using hb
    have htake : untilSetup (x.2 ++ y.2) = untilSetup x.2 := by
      rw [untilSetup, List.takeWhile_append]
      exact if_neg hlen
    intro e he
    exact hx.log e (htake ▸ he)

/-- The control read is over once the packet of the host has been handled, unless a SETUP packet
starts the next one. -/
theorem ready_ne_read (he : r.ep0 = true) (hs : u.takesSetup r = false)
    (hi : u.controlTransferState ≠ .read ∨ r.interrupts = true) :
    (u.ready r).controlTransferState ≠ .read := by
  rw [ready_controlTransferState]
  by_cases ha : r.aborts = true
  · rw [if_pos ha]
    nofun
  · rw [if_neg ha]
    rcases hi with hn | hint
    · exact hn
    · intro hread
      have hready : (u.ready r).controlTransferState ≠ .write := by
        rw [ready_controlTransferState, if_neg ha, hread]
        nofun
      rw [r.interrupts_of_ep0 he, Bool.eq_false_iff.mpr ha, Bool.false_or] at hint
      rw [takesSetup_eq he hready, hint] at hs
      cases hs

variable [DecidableEq ρ]

theorem dropped_idle (r : Readings) :
    ∀ e ∈ flagLog r ++ if r.outpktRdy then [Ep0Event.usbcs0 0 0x40] else [], e.isIdle = true := by
  intro e he
  rcases List.mem_append.mp he with he | he
  · exact flagLog_idle r e he
  · cases ho : r.outpktRdy <;> simp only [ho] at he
    · cases he
    · rw [List.mem_singleton.mp he]
      decide

/-- A call that does not interrupt the transfer sends the next packet if it can. -/
theorem usbPoll_sends (hs : u.controlTransferState ≠ .write) (hq : r.interrupts = false) :
    Sends D u (if r.inReady then 1 else 0) (u.usbPoll D r) := by
  cases he : r.ep0 with
  | false =>
      have hn : r.inReady = false := by rw [Readings.inReady, he, Bool.false_and]
      have hreset := r.interrupts_of_not_ep0 he
      rw [hq] at hreset
      obtain ⟨state, suspend, hp⟩ := usbPoll_not_ep0 r u D he
      rw [hp, ← hreset, hn]
      exact .idle (pending_congr rfl rfl rfl rfl) hs (by simp)
  | true =>
      have hint := r.interrupts_of_ep0 he
      rw [hq] at hint
      obtain ⟨ha, ho⟩ := Bool.or_eq_false_iff.mp hint.symm
      have hstate : (u.ready r).controlTransferState = u.controlTransferState := by
        rw [ready_controlTransferState, ha]
        rfl
      have hw : (u.ready r).controlTransferState ≠ .write := by rwa [hstate]
      have hsetup : u.takesSetup r = false := (takesSetup_eq he hw).trans ho
      rw [usbPoll_dropped D he (takesData_eq_false hw) hsetup]
      have hready : (if r.inReady then 1 else 0) = 0 + if r.inpktRdy then 0 else 1 := by
        rw [Readings.inReady, he]
        cases r.inpktRdy <;> rfl
      rw [hready]
      have hpend : (u.ready r).pending D = u.pending D :=
        pending_congr hstate (ready_bytesLeft r u) (ready_pointer r u) (ready_xdata r u)
      exact (Sends.idle hpend hw (dropped_idle r)).trans (inPacket_sends (ready_usbindex r u) hw)

theorem polls_sends {rs : List Readings} (hs : u.controlTransferState ≠ .write)
    (hq : ∀ r ∈ rs, r.interrupts = false) :
    Sends D u (rs.countP Readings.inReady) (polls D rs u) := by
  induction rs generalizing u with
  | nil => exact .idle rfl hs (by simp)
  | cons r rs ih =>
      obtain ⟨hr, hrs⟩ := List.forall_mem_cons.mp hq
      have hfirst := usbPoll_sends (D := D) hs hr
      rw [List.countP_cons, Nat.add_comm]
      exact hfirst.trans (ih hfirst.state hrs)

/-! ### Interrupted transfers -/

theorem dataPacket_ended (hw : u.controlTransferState = .write) :
    (u.dataPacket D r).1.controlTransferState ≠ .read ∧
      ∀ e ∈ (u.dataPacket D r).2, e.isIdle = true := by
  unfold dataPacket
  dsimp only
  split_ifs
  · rw [receiveData_eq, writeUsbcs0]
    refine ⟨by dsimp only; rw [hw]; decide, fun e he => ?_⟩
    rw [List.mem_singleton.mp he]
    rfl
  · obtain ⟨value, hv, hf⟩ := finishWrite_eq D r (u.receiveData D r)
    rw [hf]
    refine ⟨fun hr => (by cases hr), fun e he => ?_⟩
    rw [List.mem_singleton.mp he]
    rcases hv with rfl | rfl <;> rfl

theorem usbPoll_ended (hi : u.controlTransferState ≠ .read ∨ r.interrupts = true) :
    Ended (u.usbPoll D r) := by
  cases he : r.ep0 with
  | false =>
      obtain ⟨state, suspend, hp⟩ := usbPoll_not_ep0 r u D he
      rw [hp]
      refine ⟨by simp [untilSetup], fun _ => ?_⟩
      dsimp only
      rw [r.interrupts_of_not_ep0 he] at hi
      rcases hi with hn | hreset
      · split_ifs
        · nofun
        · exact hn
      · rw [if_pos hreset]
        nofun
  | true =>
      cases hsetup : u.takesSetup r with
      | true =>
          have hlog : (u.usbPoll D r).2 = flagLog r ++ .setup (.ofFifo r.fifo) ::
              ((u.handled D r).answerSetup.2 ++
                ((u.handled D r).answerSetup.1.inPacket D r).2) := by
            rw [usbPoll_takesSetup D hsetup]
            simp only [Ep0.andThen_snd, Ep0.andThen_fst, List.append_assoc, List.cons_append,
              List.nil_append]
          refine ⟨?_, fun hall => ?_⟩
          · rw [hlog, untilSetup_append (isSetup_of_isIdle (flagLog_idle r))]
            simpa [untilSetup, Ep0Event.isSetup] using flagLog_idle r
          · have hmem := hall (.setup (.ofFifo r.fifo)) (by rw [hlog]; simp)
            cases hmem
      | false =>
          cases hdata : u.takesData r with
          | true =>
              obtain ⟨hstate, hidle⟩ := dataPacket_ended (D := D) (r := r)
                (takesData_iff.mp hdata).2
              rw [usbPoll_takesData D hdata]
              unfold Ep0.andThen
              dsimp only
              rw [inPacket_of_ne_read hstate, List.append_nil]
              refine ⟨fun e hm => ?_, fun _ => hstate⟩
              rcases List.mem_append.mp ((List.takeWhile_prefix _).subset hm) with hm | hm
              · exact flagLog_idle r e hm
              · exact hidle e hm
          | false =>
              have hstate := ready_ne_read he hsetup hi
              rw [usbPoll_dropped D he hdata hsetup]
              unfold Ep0.andThen
              dsimp only
              rw [inPacket_of_ne_read hstate, List.append_nil]
              refine ⟨fun e hm => ?_, fun _ => hstate⟩
              exact dropped_idle r e ((List.takeWhile_prefix _).subset hm)

theorem polls_ended (rs : List Readings) (h : u.controlTransferState ≠ .read) :
    Ended (polls D rs u) := by
  induction rs generalizing u with
  | nil => exact ⟨fun _ he => absurd he List.not_mem_nil, fun _ => h⟩
  | cons r rs ih => exact (usbPoll_ended (Or.inl h)).trans fun hn => ih hn

/-- After an interruption, whatever follows. -/
theorem interrupted_ended (rs : List Readings) (hi : r.interrupts = true) :
    Ended (polls D (r :: rs) u) :=
  (usbPoll_ended (Or.inr hi)).trans fun hn => polls_ended rs hn

/-! ### The transfers that follow -/

/-- A call that has no transfer to go on with does not depend on the previous one. -/
theorem usbPoll_forget (h : D.Anew) (left : ℕ) (pointer : Pointer ρ)
    (hw : u.controlTransferState ≠ .write)
    (hi : u.controlTransferState ≠ .read ∨ r.interrupts = true) :
    Repeats ((u.forget left pointer).usbPoll D r) (u.usbPoll D r) := by
  have hnone : u.controlTransferState ≠ .read → u.controlTransferState = .none := by
    intro hr
    cases hs : u.controlTransferState with
    | none => rfl
    | read => exact absurd hs hr
    | write => exact absurd hs hw
  cases he : r.ep0 with
  | false =>
      rw [r.interrupts_of_not_ep0 he] at hi
      unfold usbPoll
      by_cases hp : r.usbPowerPresent = true
      · have hif : ¬ r.ep0if = true := fun hif => by simp [Readings.ep0, hp, hif] at he
        have hstate : (u.busEvents r).controlTransferState = .none := by
          rw [busEvents_eq]
          rw [hp, Bool.true_and] at hi
          dsimp only
          split_ifs with hreset
          · rfl
          · exact hnone (hi.resolve_right hreset)
        rw [if_pos hp, if_pos hp, if_neg hif, if_neg hif, busEvents_forget]
        exact ⟨rfl, goesOnAs_forget hstate⟩
      · rw [Bool.eq_false_iff.mpr hp, Bool.false_and] at hi
        rw [if_neg hp, if_neg hp]
        exact ⟨rfl, goesOnAs_forget (u := u.detach) (hnone (hi.resolve_right Bool.false_ne_true))⟩
  | true =>
      have hready : (u.ready r).controlTransferState ≠ .write := by
        rw [ready_controlTransferState]
        split_ifs
        · rintro ⟨⟩
        · exact hw
      have hforget : ((u.forget left pointer).ready r).controlTransferState ≠ .write := by
        rw [ready_forget]
        rintro ⟨⟩
      have hsame : (u.forget left pointer).takesSetup r = u.takesSetup r := by
        rw [takesSetup_eq he hforget, takesSetup_eq he hready]
      cases hs : u.takesSetup r with
      | true =>
          obtain ⟨hlog, hgo⟩ := (handled_forget h r u left pointer).answerSetup
          rw [usbPoll_takesSetup D hs, usbPoll_takesSetup D (hsame.trans hs)]
          refine Repeats.andThen ⟨?_, hgo⟩ fun _ hv => repeats_inPacket hv
          rw [Ep0.andThen_snd, Ep0.andThen_snd, hlog]
      | false =>
          have hstate : (u.ready r).controlTransferState = .none := by
            cases hc : (u.ready r).controlTransferState with
            | none => rfl
            | read => exact absurd hc (ready_ne_read he hs hi)
            | write => exact absurd hc hready
          rw [usbPoll_dropped D he (takesData_eq_false hready) hs,
            usbPoll_dropped D he (takesData_eq_false hforget) (hsame.trans hs), ready_forget]
          exact Repeats.andThen ⟨rfl, goesOnAs_forget hstate⟩ fun _ hv => repeats_inPacket hv

theorem polls_goesOnAs (h : D.Anew) (rs : List Readings) (hvu : v.GoesOnAs u) :
    Repeats (polls D rs v) (polls D rs u) := by
  induction rs generalizing u v with
  | nil => exact ⟨rfl, hvu⟩
  | cons r rs ih =>
      have hfirst : Repeats (v.usbPoll D r) (u.usbPoll D r) := by
        rcases hvu with rfl | ⟨hn, left, pointer, rfl⟩
        · exact ⟨rfl, Or.inl rfl⟩
        · exact usbPoll_forget h left pointer (by rw [hn]; nofun) (Or.inl (by rw [hn]; nofun))
      exact hfirst.andThen fun _ hv => ih hv

/-- From the interruption of a control read on, everything is as if it had never been. -/
theorem polls_forget (h : D.Anew) (rs : List Readings) (left : ℕ) (pointer : Pointer ρ)
    (hw : u.controlTransferState ≠ .write) (hi : r.interrupts = true) :
    Repeats (polls D (r :: rs) (u.forget left pointer)) (polls D (r :: rs) u) :=
  (usbPoll_forget h left pointer hw (Or.inr hi)).andThen fun _ hv => polls_goesOnAs h rs hv

theorem polls_append (rs ts : List Readings) :
    polls D (rs ++ ts) u = (polls D rs u).andThen (polls D ts) := by
  induction rs generalizing u with
  | nil => rfl
  | cons r rs ih =>
      have hsplit : polls D (r :: (rs ++ ts)) u =
          (u.usbPoll D r).andThen (polls D (rs ++ ts)) := rfl
      rw [List.cons_append, hsplit]
      unfold Ep0.andThen at ih ⊢
      rw [ih, ← List.append_assoc]
      rfl

theorem handled_usbindex : (u.handled D r).usbindex = 0 := rfl

/-- What follows the SETUP packet of a control read. -/
theorem polls_of_read (hsetup : u.takesSetup r = true)
    (hread : (u.handled D r).controlTransferState = .read) (rs : List Readings) :
    polls D (r :: rs) u = Ep0.andThen
      ((u.handled D r), flagLog r ++ [.setup (.ofFifo r.fifo)])
      fun v => (v.inPacket D r).andThen (polls D rs) := by
  have hanswer : (u.handled D r).answerSetup = (u.handled D r, []) := answerSetup_of_read hread
  have hsplit : polls D (r :: rs) u = (u.usbPoll D r).andThen (polls D rs) := rfl
  rw [hsplit, usbPoll_takesSetup D hsetup]
  unfold Ep0.andThen
  dsimp only
  rw [hanswer, List.append_nil, List.append_assoc]

omit [DecidableEq ρ] in
/-- The next packets are sent and then, until the next SETUP packet, nothing. -/
theorem Sends.untilSetup {k : ℕ} {x : Ep0 ρ δ} {es : List Ep0Event} (hx : Sends D u k x)
    (hes : ∀ e ∈ untilSetup es, e.isIdle = true) :
    Usb.packets (Usb.untilSetup (x.2 ++ es)) = (u.pending D).take k ∧
      Usb.written (Usb.untilSetup (x.2 ++ es)) = ((u.pending D).take k).flatMap Packet.bytes := by
  have hidle : Usb.packets (Usb.untilSetup es) = [] := by
    have hp : Usb.packets (Usb.untilSetup es ++ []) = Usb.packets [] := packetsFrom_idle hes
    rwa [List.append_nil] at hp
  rw [untilSetup_append hx.noSetup, hx.packets, written_append, hx.written, hidle,
    written_idle hes, List.append_nil, List.append_nil]
  exact ⟨rfl, rfl⟩

theorem handled_sends (hsetup : u.takesSetup r = true)
    (hread : (u.handled D r).controlTransferState = .read) :
    Sends D (u.handled D r) (if r.inReady then 1 else 0) ((u.handled D r).inPacket D r) := by
  have hready : (if r.inReady then 1 else 0) = if r.inpktRdy then 0 else 1 := by
    rw [Readings.inReady, out_eq_true (takesSetup_iff.mp hsetup).1]
    cases r.inpktRdy <;> rfl
  rw [hready]
  exact inPacket_sends handled_usbindex (by rw [hread]; nofun)

theorem polls_of_read_fst (hsetup : u.takesSetup r = true)
    (hread : (u.handled D r).controlTransferState = .read) (rs : List Readings) :
    (polls D (r :: rs) u).1 = (((u.handled D r).inPacket D r).andThen (polls D rs)).1 := by
  rw [polls_of_read hsetup hread, Ep0.andThen_fst]

theorem transferLog_of_read (hsetup : u.takesSetup r = true)
    (hread : (u.handled D r).controlTransferState = .read) (rs : List Readings) :
    transferLog (polls D (r :: rs) u).2 =
      untilSetup (((u.handled D r).inPacket D r).andThen (polls D rs)).2 := by
  rw [← transferLog_cons (isSetup_of_isIdle (flagLog_idle r)) (.ofFifo r.fifo), List.append_cons]
  exact congrArg (fun x => transferLog x.2) (polls_of_read hsetup hread rs)

/-- As long as nothing interrupts the transfer. -/
theorem quiet_sends (hsetup : u.takesSetup r = true)
    (hread : (u.handled D r).controlTransferState = .read) {qs : List Readings}
    (hqs : ∀ q ∈ qs, q.interrupts = false) :
    Sends D (u.handled D r) ((r :: qs).countP Readings.inReady)
      (((u.handled D r).inPacket D r).andThen (polls D qs)) := by
  have hfirst := handled_sends hsetup hread
  rw [List.countP_cons, Nat.add_comm]
  exact hfirst.trans (polls_sends hfirst.state hqs)

theorem sent_of_read (hsetup : u.takesSetup r = true)
    (hread : (u.handled D r).controlTransferState = .read) (rs : List Readings) :
    let k := (r :: rs.takeWhile fun q => !q.interrupts).countP Readings.inReady
    packets (transferLog (polls D (r :: rs) u).2) = ((u.handled D r).pending D).take k ∧
      written (transferLog (polls D (r :: rs) u).2) =
        (((u.handled D r).pending D).take k).flatMap Packet.bytes := by
  intro k
  let quiet := fun q : Readings => !q.interrupts
  have hqs : ∀ q ∈ rs.takeWhile quiet, q.interrupts = false := by
    intro q hq
    simpa only [quiet, Bool.not_eq_true'] using List.mem_takeWhile_imp hq
  have hrest : ∀ e ∈ untilSetup (polls D (rs.dropWhile quiet)
      (polls D (r :: rs.takeWhile quiet) u).1).2, e.isIdle = true := by
    have hhead := List.head?_dropWhile_not quiet rs
    cases ht : rs.dropWhile quiet with
    | nil => exact fun _ he => absurd he List.not_mem_nil
    | cons a ts =>
        rw [ht, List.head?_cons] at hhead
        exact (interrupted_ended ts (by simpa only [quiet, Bool.not_eq_false'] using hhead)).log
  have hsplit : (((u.handled D r).inPacket D r).andThen (polls D rs)).2 =
      (((u.handled D r).inPacket D r).andThen (polls D (rs.takeWhile quiet))).2 ++
        (polls D (rs.dropWhile quiet) (polls D (r :: rs.takeWhile quiet) u).1).2 := by
    have happ := polls_append (D := D) (u := ((u.handled D r).inPacket D r).1)
      (rs.takeWhile quiet) (rs.dropWhile quiet)
    rw [List.takeWhile_append_dropWhile] at happ
    rw [Ep0.andThen_snd, happ, polls_of_read_fst hsetup hread, Ep0.andThen_snd, Ep0.andThen_snd,
      List.append_assoc]
    rfl
  rw [transferLog_of_read hsetup hread, hsplit]
  exact (quiet_sends hsetup hread hqs).untilSetup hrest

theorem pending_handled (hread : (u.handled D r).controlTransferState = .read) :
    (u.handled D r).pending D = (u.handled D r).readPackets D
      (u.handled D r).controlTransferBytesLeft (u.handled D r).controlTransferPointer :=
  if_pos hread

theorem written_of_read (hsetup : u.takesSetup r = true)
    (hread : (u.handled D r).controlTransferState = .read) (rs : List Readings) :
    written (transferLog (polls D (r :: rs) u).2) =
      ((u.handled D r).bytesAt D (u.handled D r).controlTransferPointer
        (u.handled D r).controlTransferBytesLeft).take
          (32 * (r :: rs.takeWhile fun q => !q.interrupts).countP Readings.inReady) := by
  rw [(sent_of_read hsetup hread rs).2, pending_handled hread, readPackets_bytes]

/-- A SETUP packet that starts no control read: no byte is written until the next one. -/
theorem written_of_ne_read (hsetup : u.takesSetup r = true)
    (hread : (u.handled D r).controlTransferState ≠ .read) (rs : List Readings) :
    written (transferLog (polls D (r :: rs) u).2) = [] := by
  obtain ⟨value, -, hanswer⟩ := answerSetup_of_ne_read hread
  have hstate : (u.handled D r).answerSetup.1.controlTransferState ≠ .read := by
    rw [hanswer]
    dsimp only
    split_ifs <;> nofun
  have hpoll : u.usbPoll D r = ((u.handled D r).answerSetup.1,
      flagLog r ++ .setup (.ofFifo r.fifo) :: [.usbcs0 (u.handled D r).usbindex value]) := by
    rw [usbPoll_takesSetup D hsetup]
    unfold Ep0.andThen
    dsimp only
    rw [inPacket_of_ne_read hstate, hanswer, List.append_nil, List.append_assoc]
    rfl
  have hrest := written_idle (polls_ended (D := D) rs hstate).log
  have hlog : (polls D (r :: rs) u).2 = flagLog r ++ .setup (.ofFifo r.fifo) ::
      ([.usbcs0 (u.handled D r).usbindex value] ++
        (polls D rs (u.handled D r).answerSetup.1).2) := by
    change (u.usbPoll D r).2 ++ (polls D rs (u.usbPoll D r).1).2 = _
    rw [hpoll, List.append_assoc]
    rfl
  have hanswered : ∀ e ∈ [Ep0Event.usbcs0 (u.handled D r).usbindex value], e.isSetup = false := by
    simp [Ep0Event.isSetup]
  rw [hlog, transferLog_cons (isSetup_of_isIdle (flagLog_idle r)), untilSetup_append hanswered,
    written_append, hrest, List.append_nil]
  rfl

/-- After the SETUP packet of a control read, each call that finds endpoint 0 ready sends the next
packet, until the transfer is interrupted. Then nothing of it is sent any more: no byte is written
before the next SETUP packet nor after one that starts no control read, one that starts a control
read sets its length and source itself, and all that follows is as if the old transfer had never
been, whatever it has left behind. -/
theorem control_read_sends (D : ClassDriver ρ δ) (u : Device ρ δ) (r : Readings)
    (rs : List Readings) (hsetup : u.takesSetup r = true)
    (hread : (u.handled D r).controlTransferState = .read) :
    let n := (u.handled D r).controlTransferBytesLeft
    let source := (u.handled D r).controlTransferPointer
    let k := (r :: rs.takeWhile fun q => !q.interrupts).countP Readings.inReady
    let log := transferLog (polls D (r :: rs) u).2
    packets log = ((u.handled D r).readPackets D n source).take k ∧
    written log = ((u.handled D r).bytesAt D source n).take (32 * k) ∧
    ∀ qs a ts, rs = qs ++ a :: ts → a.interrupts = true →
      let v := (polls D (r :: qs) u).1
      let next := (polls D (a :: ts) v).2
      written (untilSetup next) = [] ∧
      (v.takesSetup a = true → (v.handled D a).controlTransferState ≠ .read →
        written (transferLog next) = []) ∧
      (D.Anew → (∀ q ∈ qs, q.interrupts = false) → ∀ left pointer,
        (v.takesSetup a = true → (v.handled D a).controlTransferState = .read →
          (v.forget left pointer).handled D a = v.handled D a) ∧
        (polls D (a :: ts) (v.forget left pointer)).2 = next) := by
  intro n source k log
  refine ⟨?_, written_of_read hsetup hread rs, fun qs a ts _ ha => ⟨?_, ?_, ?_⟩⟩
  · rw [← pending_handled hread]
    exact (sent_of_read hsetup hread rs).1
  · exact written_idle (interrupted_ended ts ha).log
  · exact fun hs hn => written_of_ne_read hs hn ts
  · intro hanew hqs left pointer
    have hstate : (polls D (r :: qs) u).1.controlTransferState ≠ .write := by
      rw [polls_of_read_fst hsetup hread]
      exact (quiet_sends hsetup hread hqs).state
    refine ⟨fun _ hr => ?_, (polls_forget hanew ts left pointer hstate ha).1⟩
    exact (handled_forget hanew a _ left pointer).eq (Or.inl hr)

/-- The configuration descriptor, whose last packet is not sent because the transfer is ended; a
GET_LINE_CODING that ends it after the first packet sends the line coding. -/
theorem control_read_sends_configuration :
    let D := UsbCdcAcm.usbCdcAcm fun _ => 0
    let getConfiguration := Readings.packet 0x01 [0x80, 6, 0, 2, 0, 0, 255, 0]
    let getLineCoding := Readings.packet 0x11 [0xA1, 0x21, 0, 0, 0, 0, 7, 0]
    let polled := polls D [getConfiguration, .packet 0x00 [], .packet 0x10 [], .packet 0x00 []]
      UsbCdcAcm.init
    let v := (polls D [getConfiguration] UsbCdcAcm.init).1
    written (transferLog polled.2) = UsbCdcAcm.usbConfigurationDescriptor.take 64 ∧
      written (polls D [getLineCoding, .packet 0x00 []] v).2 = UsbCdcAcm.initialLineCoding ∧
      (polls D [getLineCoding, .packet 0x00 []] (v.forget 0 (.start .response))).2 =
        (polls D [getLineCoding, .packet 0x00 []] v).2 :=
  let D := UsbCdcAcm.usbCdcAcm fun _ => 0
  ⟨(control_read_sends D UsbCdcAcm.init (.packet 0x01 [0x80, 6, 0, 2, 0, 0, 255, 0])
      [.packet 0x00 [], .packet 0x10 [], .packet 0x00 []]
      (by decide +kernel) (by decide +kernel)).2.1.trans (by decide +kernel),
    by decide +kernel,
    ((control_read_sends D UsbCdcAcm.init (.packet 0x01 [0x80, 6, 0, 2, 0, 0, 255, 0])
      [.packet 0x11 [0xA1, 0x21, 0, 0, 0, 0, 7, 0], .packet 0x00 []]
      (by decide +kernel) (by decide +kernel)).2.2 [] _ _ rfl (by decide)).2.2
      (UsbCdcAcm.usbCdcAcm_anew _) (by simp) 0 (.start .response) |>.2⟩

end Device
end WixelSdk.Usb
