import WixelSdk.RadioCom
import WixelSdk.InBand
import WixelSdk.Transition

/-!
# The main loop above the byte stream layer

A `Host` is the layer with a log of the calls that the main loop has made and of what they returned.
Interrupts come between the calls, and each call is given those that come while it runs.
-/

namespace WixelSdk.RadioCom
open RadioMac RadioLink Transition InBand

/-- A call that has returned. `txSendByte` carries the control signals that were in force. -/
inductive Call
  | txService
  | txAvailable (v : UInt8)
  | txSendByte (byte controlSignals : UInt8)
  | txControlSignals (controlSignals : UInt8)
  | rxAvailable (v : UInt8)
  | rxReceiveByte (byte : UInt8)
  | rxControlSignals (v : UInt8)
  | changeChannel (channel : UInt8)
  deriving DecidableEq, Repr

structure Host where
  com : Com
  log : List Call

inductive HostAction
  | interrupts (is : List Irq)
  | txService (is : List (List Irq))
  | txAvailable
  | txSendByte (byte : UInt8) (is : List (List Irq))
  | txControlSignals (controlSignals : UInt8) (is : List (List Irq))
  | rxAvailable (is : List (List Irq))
  | rxReceiveByte (is : List (List Irq))
  | rxControlSignals (is : List (List Irq))
  | changeChannel (channel : UInt8)

def HostAction.Transmits : HostAction → Prop
  | .txService _ => True
  | .txSendByte _ _ => True
  | .txControlSignals _ _ => True
  | _ => False

/-- The call is about to be made, and `is` will happen while it runs. -/
def Com.schedule (c : Com) (is : List (List Irq)) : Com := { c with interrupts := is }

def Com.radioLinkChangeChannel (c : Com) (channel : UInt8) : Com :=
  { c with link := c.link.radioLinkChangeChannel channel }

namespace Host

def init (radioComRxEnforceOrdering : Bool) (param_radio_channel : UInt8) : Host where
  com := (Com.powerUp radioComRxEnforceOrdering).radioComInit param_radio_channel
  log := []

def returned (h : Host) (c : Com) (call : Call) : Host := ⟨c, h.log ++ [call]⟩

def step (h : Host) : HostAction → Option Host
  | .interrupts is =>
      some ⟨{ h.com with
        link := is.foldl Node.interrupt h.com.link
        passed := h.com.passed ++ h.com.link.visits is }, h.log⟩
  | .txService is => some (h.returned (h.com.schedule is).radioComTxService .txService)
  | .txAvailable => some (h.returned h.com (.txAvailable h.com.radioComTxAvailable))
  | .txSendByte b is =>
      some (h.returned ((h.com.schedule is).radioComTxSendByte b)
        (.txSendByte b h.com.radioComTxSignals))
  | .txControlSignals v is =>
      some (h.returned ((h.com.schedule is).radioComTxControlSignals v) (.txControlSignals v))
  | .rxAvailable is =>
      (h.com.schedule is).radioComRxAvailable.toOption.map fun r =>
        h.returned r.1 (.rxAvailable r.2)
  | .rxReceiveByte is =>
      some (h.returned (h.com.schedule is).radioComRxReceiveByte.1
        (.rxReceiveByte (h.com.schedule is).radioComRxReceiveByte.2))
  | .rxControlSignals is =>
      (h.com.schedule is).radioComRxControlSignals.toOption.map fun r =>
        h.returned r.1 (.rxControlSignals r.2)
  | .changeChannel channel =>
      some (h.returned (h.com.radioLinkChangeChannel channel) (.changeChannel channel))

variable {h t : Host} {is : List (List Irq)}

theorem step_rxAvailable (ht : h.step (.rxAvailable is) = some t) :
    ∃ d, (h.com.schedule is).receiveMorePackets = .ok d ∧
      t = h.returned d (.rxAvailable d.rxBytesLeft) := by
  simp only [step, Com.radioComRxAvailable] at ht
  cases hd : (h.com.schedule is).receiveMorePackets with
  | error d => rw [hd] at ht; cases ht
  | ok d => rw [hd] at ht; exact ⟨d, rfl, (Option.some.inj ht).symm⟩

theorem step_rxControlSignals (ht : h.step (.rxControlSignals is) = some t) :
    ∃ d, (h.com.schedule is).receiveMorePackets = .ok d ∧
      t = h.returned d.reportSignals (.rxControlSignals d.radioComRxSignals) := by
  simp only [step, Com.radioComRxControlSignals] at ht
  cases hd : (h.com.schedule is).receiveMorePackets with
  | error d => rw [hd] at ht; cases ht
  | ok d => rw [hd] at ht; exact ⟨d, rfl, (Option.some.inj ht).symm⟩

/-- How many more bytes the last value of `radioComTxAvailable` allows. -/
def txAllowance (log : List Call) : ℕ :=
  log.foldl (fun k call => match call with
    | .txAvailable v => v.toNat
    | .txSendByte _ _ => k - 1
    | _ => k) 0

/-- How many more bytes the last value of `radioComRxAvailable` allows. -/
def rxAllowance (log : List Call) : ℕ :=
  log.foldl (fun k call => match call with
    | .rxAvailable v => v.toNat
    | .rxReceiveByte _ => k - 1
    | _ => k) 0

end Host

/-! ### What the RF interrupt does -/

/-- It transmits what it has to transmit, and then it listens. -/
def startListening : List Irq := [.event .strobe ⟨true, 0⟩, .event .tx ⟨true, 0⟩]

/-- It receives a frame with a good CRC, answers it, and listens again. -/
def receiveFrame (frame : List UInt8) : List Irq :=
  [.dma frame, .event .rx ⟨true, 0⟩, .event .tx ⟨true, 0⟩]

/-! ### Streams of packets -/

def dataBytes (ps : List Packet) : List UInt8 :=
  ps.flatMap fun p => if p.payloadType = payloadTypeData then p.payload else []

def packetItems (p : Packet) : List (Item UInt8 UInt8) :=
  if p.payloadType = payloadTypeData then p.payload.map .data
  else if p.payloadType = payloadTypeControlSignals then [.signal (p.payload.headD 0)]
  else []

def items (ps : List Packet) : List (Item UInt8 UInt8) := ps.flatMap packetItems

/-- The bytes of a packet stream, each with the control signals that the last packet with signals
before it carries. -/
def stamped (v : UInt8) (ps : List Packet) : List (UInt8 × UInt8) := stamp v (items ps)

def signalsAfter (v : UInt8) (ps : List Packet) : UInt8 := last v (items ps)

theorem dataBytes_append (ps qs : List Packet) :
    dataBytes (ps ++ qs) = dataBytes ps ++ dataBytes qs := List.flatMap_append

theorem items_append (ps qs : List Packet) : items (ps ++ qs) = items ps ++ items qs :=
  List.flatMap_append

theorem items_data (bytes : List UInt8) :
    items [⟨payloadTypeData, bytes⟩] = bytes.map .data := List.append_nil _

theorem items_signals (v : UInt8) : items [⟨payloadTypeControlSignals, [v]⟩] = [.signal v] := rfl

theorem data_items (ps : List Packet) : data (items ps) = dataBytes ps := by
  induction ps with
  | nil => rfl
  | cons p ps ih =>
      have hhead : data (packetItems p) =
          if p.payloadType = payloadTypeData then p.payload else [] := by
        unfold packetItems
        split_ifs
        · rw [← map_fst_stamp (v := (0 : UInt8)), stamp_map_data, List.map_map]
          exact List.map_id _
        · rfl
        · rfl
      rw [items, List.flatMap_cons, data_append, hhead, dataBytes, List.flatMap_cons]
      exact congrArg _ ih

theorem map_fst_stamped (v : UInt8) (ps : List Packet) :
    (stamped v ps).map Prod.fst = dataBytes ps := map_fst_stamp.trans (data_items ps)

end WixelSdk.RadioCom
