import WixelSdk.RadioQueue
import WixelSdk.Transition
import Mathlib.Tactic.SplitIfs

/-!
# A radio queue interleaved with its interrupt

The main loop makes one `Call` at a time, with `radioQueueTxSendPacket` taken as its two halves;
`inSend` holds between them. A `Station` is a queue observed while the main loop, the DMA channel
and the events of the MAC layer take turns. Its history is the only addition, and no function of
the queue reads it: it records what the main loop queues and is presented, and what the DMA channel
was set up to read or fill at each event.
-/

namespace WixelSdk.RadioQueue
open RadioMac Transition
open RadioLink (Buf)

inductive Call
  | storeTx (offset : ℕ) (b : UInt8)
  | sendPacket
  | strobe
  | rxDone
  | allowCrcErrors (allow : Bool)

/-- Where the main loop is after a call, unless it cannot make it now. -/
def Call.place (inSend : Bool) : Call → Option Bool
  | .sendPacket => if inSend then none else some true
  | .strobe => if inSend then some false else none
  | _ => if inSend then none else some false

namespace Queue

def call (q : Queue) : Call → Queue
  | .storeTx offset b => q.storeTx q.radioQueueTxMainLoopIndex offset b
  | .sendPacket => q.advanceTxMainLoopIndex
  | .strobe => q.radioMacStrobe
  | .rxDone => q.radioQueueRxDoneWithPacket
  | .allowCrcErrors allow => { q with radioQueueAllowCrcErrors := allow }

/-- The use that the comments of radio_queue.h allow: a packet is written and sent only while
radioQueueTxCurrentPacket() is non-null, and released only while radioQueueRxCurrentPacket() is. -/
def Documented (q : Queue) : Call → Prop
  | .storeTx offset _ => q.radioQueueTxCurrentPacket ≠ none ∧ offset ≤ maxPacketSize
  | .sendPacket => q.radioQueueTxCurrentPacket ≠ none
  | .rxDone => q.radioQueueRxCurrentPacket ≠ none
  | _ => True

instance (q : Queue) (c : Call) : Decidable (q.Documented c) := by
  rcases c with ⟨⟩ <;> dsimp only [Documented] <;> infer_instance

def rxOwned (q : Queue) : ℕ :=
  Ring.count rxPacketCount q.radioQueueRxMainLoopIndex q.radioQueueRxInterruptIndex

end Queue

/-- `handed` carries the number of packets transmitted before, `received` whether the CRC was good,
radioQueueAllowCrcErrors, and the number of buffers that the main loop owned. -/
inductive QueueEvent
  | queued (p : Buf)
  | handed (position : ℕ) (p : Buf)
  | transmitted (p : Buf)
  | interrupted
  | received (p : Buf) (crcPassed allowed : Bool) (owned : ℕ)
  | presented (p : Buf)

namespace QueueEvent

def queued? : QueueEvent → Option Buf
  | .queued p => some p
  | _ => none

def handed? : QueueEvent → Option (ℕ × Buf)
  | .handed k p => some (k, p)
  | _ => none

def transmitted? : QueueEvent → Option Buf
  | .transmitted p => some p
  | _ => none

/-- The received packets that the main loop is to be given: those with data and a good CRC, or any
CRC if that is allowed, that arrive while it owns fewer than two. -/
def wanted? : QueueEvent → Option Buf
  | .received p crcPassed allowed owned =>
      if (crcPassed ∨ allowed) ∧ p 0 ≠ 0 ∧ owned < 2 then some p else none
  | _ => none

def presented? : QueueEvent → Option Buf
  | .presented p => some p
  | _ => none

def isInterrupted : QueueEvent → Bool
  | .interrupted => true
  | _ => false

end QueueEvent

abbrev History := List QueueEvent

namespace History

variable (h : History)

def queued : List Buf := h.filterMap QueueEvent.queued?

def handed : List (ℕ × Buf) := h.filterMap QueueEvent.handed?

def transmitted : List Buf := h.filterMap QueueEvent.transmitted?

def wanted : List Buf := h.filterMap QueueEvent.wanted?

def presented : List Buf := h.filterMap QueueEvent.presented?

def interrupted : Bool := h.any QueueEvent.isInterrupted

end History

structure Station where
  queue : Queue
  inSend : Bool
  history : History

inductive Action
  | call (c : Call)
  | dma (bytes : List UInt8)
  | event (e : MacEvent) (r : Readings)
  | rfErrors (h : RfReadings)

namespace Station

variable (s : Station)

def init (param_radio_channel : UInt8) : Station where
  queue := Queue.powerUp.radioQueueInit param_radio_channel
  inSend := false
  history := []

def observeCall (q : Queue) : Call → History
  | .sendPacket => [.queued (q.radioQueueTxPacket q.radioQueueTxMainLoopIndex)]
  | .rxDone => [.presented (q.radioQueueRxPacket q.radioQueueRxMainLoopIndex)]
  | _ => []

/-- What an event says about the transfer that it ends. -/
def observeEnd (q : Queue) (r : Readings) : MacEvent → History
  | .tx => (q.transmitting.map fun p => .transmitted (q.buffer p)).toList
  | .rx => (q.receiving.map fun p =>
      .received (q.buffer p) r.crcPassed q.radioQueueAllowCrcErrors q.rxOwned).toList
  | _ => (q.transmitting.map fun _ => .interrupted).toList

/-- The packet that the handler gave to `radioMacTx`, after so many others. -/
def observeStart (position : ℕ) (q : Queue) : History :=
  (q.transmitting.map fun p => .handed position (q.buffer p)).toList

def event (e : MacEvent) (r : Readings) : Station :=
  let ended := s.history ++ observeEnd s.queue r e
  let q := s.queue.radioMacEvent r e
  ⟨q, s.inSend, ended ++ observeStart (History.transmitted ended).length q⟩

def step : Action → Option Station
  | .call c => (c.place s.inSend).map fun b =>
      ⟨s.queue.call c, b, s.history ++ observeCall s.queue c⟩
  | .dma bytes => some { s with queue := s.queue.dmaReceive bytes }
  | .event e r => if s.queue.mac.Reports e then some (s.event e r) else none
  | .rfErrors h => some { s with queue := Queue.client.reportErrors h s.queue }

def Documented : Action → Prop
  | .call c => s.queue.Documented c
  | _ => True

instance (a : Action) : Decidable (s.Documented a) := by
  rcases a with ⟨⟩ <;> dsimp only [Documented] <;> infer_instance

variable {s : Station}

/-- Every run of the RF interrupt is a sequence of reported events, ending with its error bits. -/
theorem isrRf_run (h : RfReadings) : ∃ history,
    Run step Documented s ⟨s.queue.isrRf h, s.inSend, history⟩ := by
  apply Queue.client.isrRf_preserves
    (P := fun q => ∃ history, Run step Documented s ⟨q, s.inSend, history⟩) h
  · rintro e q ⟨history, hr⟩ hrep
    let t : Station := ⟨q, s.inSend, history⟩
    have hs : t.step (.event e h.readings) = some (t.event e h.readings) := if_pos hrep
    exact ⟨(t.event e h.readings).history, hr.tail ⟨.event e h.readings, trivial, hs⟩⟩
  · rintro q ⟨history, hr⟩
    exact ⟨history, hr.tail ⟨.rfErrors h, trivial, rfl⟩⟩
  · exact ⟨s.history, .refl⟩

end Station
end WixelSdk.RadioQueue
