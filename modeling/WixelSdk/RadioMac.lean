import Mathlib.Data.Nat.Notation
import Mathlib.Tactic.SplitIfs

/-!
# The radio MAC layer

`radio_mac.c` owns the radio, its DMA channel and the RF interrupt. Higher-level code is a callback
`radioMacEventHandler` that runs inside the interrupt and chooses the next radio mode by calling
`radioMacRx` or `radioMacTx`. The layer is generic in the state of that code and in its buffers.

Every hardware register that the interrupt tests is an input of the run. The command strobes that
`ISR(RF)` and `radioMacEvent` write to RFST before the handler has run are left out: the switch at
the end of `radioMacEvent` always overwrites them.
-/

namespace WixelSdk.RadioMac

inductive MacState
  | off | idle | rx | tx
  deriving DecidableEq, Repr

inductive MacEvent
  | tx | rx | rxTimeout | strobe
  deriving DecidableEq, Repr

inductive Rfst
  | sfstxon | scal | srx | stx | sidle
  deriving DecidableEq, Repr

/-- An end of a DMA transfer: the radio's data register or a packet buffer. -/
inductive DmaAddress (ρ : Type)
  | rfd
  | packet (p : ρ)
  deriving DecidableEq, Repr

/-- `dmaConfig.radio`: at most `lenl` bytes, and `vlen` bytes more than the first byte says. -/
structure RadioDma (ρ : Type) where
  src : DmaAddress ρ
  dest : DmaAddress ρ
  lenl : ℕ
  vlen : ℕ
  deriving DecidableEq, Repr

structure Mac (ρ : Type) where
  strobe : Bool
  radioMacState : MacState
  mcsm2 : ℕ
  worevt1 : ℕ
  rfst : Rfst
  dma : Option (RadioDma ρ)
  dmaArmed : Bool
  pktlen : ℕ
  radioRxOverflowOccurred : Bool
  radioTxUnderflowOccurred : Bool
  deriving DecidableEq, Repr

/-- What the handler reads from the hardware: the CRC bit of LQI and the random number. -/
structure Readings where
  crcPassed : Bool
  random : UInt8
  deriving DecidableEq, Repr

/-- What one run of the RF interrupt reads from the hardware. -/
structure RfReadings where
  readings : Readings
  irqDone : Bool
  irqTimeout : Bool
  marcstateRx : Bool
  sfd : Bool
  worevt1Low : Bool
  irqTxunf : Bool
  irqRxovf : Bool
  deriving DecidableEq, Repr

namespace Mac

variable {ρ : Type} (m : Mac ρ)

def powerUp : Mac ρ where
  strobe := false
  radioMacState := .off
  mcsm2 := 7
  worevt1 := 0
  rfst := .sidle
  dma := none
  dmaArmed := false
  pktlen := 255
  radioRxOverflowOccurred := false
  radioTxUnderflowOccurred := false

def radioMacStrobe : Mac ρ := { m with strobe := true }

def radioMacInit : Mac ρ := { m with mcsm2 := 7 }

def radioMacRx (packet : ρ) (timeout : ℕ) : Mac ρ :=
  { m with
    mcsm2 := if timeout ≠ 0 then 0 else 7
    worevt1 := if timeout ≠ 0 then timeout else m.worevt1
    dma := some ⟨.rfd, .packet packet, 1 + m.pktlen + 2, 3⟩
    radioMacState := .rx }

def radioMacTx (packet : ρ) : Mac ρ :=
  { m with dma := some ⟨.packet packet, .rfd, 1 + m.pktlen, 1⟩, radioMacState := .tx }

/-- The part of `radioMacEvent` before the handler: disarm the DMA channel, and listen without a
timeout unless the handler says otherwise. -/
def beforeHandler : Mac ρ := { m with dmaArmed := false, radioMacState := .rx, mcsm2 := 7 }

def afterHandler : Mac ρ :=
  { m with
    dmaArmed := m.radioMacState = .rx ∨ m.radioMacState = .tx ∨ m.dmaArmed
    rfst := match m.radioMacState with
      | .rx => .srx
      | .tx => .stx
      | _ => m.rfst
    strobe := false }

/-- Receiving with a timeout: RX_TIME of MCSM2 is not 7. -/
def ListensWithTimeout : Prop := m.radioMacState = .rx ∧ m.mcsm2 ≠ 7

/-- The events that the interrupt may report in this state. -/
def Reports : MacEvent → Prop
  | .tx => m.radioMacState = .tx
  | .rx => m.radioMacState = .rx
  | .rxTimeout => True
  | .strobe => m.strobe = true ∧ m.radioMacState ≠ .tx

instance (e : MacEvent) : Decidable (m.Reports e) := by
  cases e <;> simp only [Reports] <;> infer_instance

end Mac

/-- Higher-level code over the MAC layer, with the MAC variables inside its state. -/
structure Client (σ ρ : Type) where
  mac : σ → Mac ρ
  setMac : Mac ρ → σ → σ
  radioMacEventHandler : Readings → MacEvent → σ → σ

namespace Client

variable {σ ρ : Type} (c : Client σ ρ)

def radioMacEvent (r : Readings) (e : MacEvent) (s : σ) : σ :=
  let s := c.setMac (c.mac s).beforeHandler s
  let s := c.radioMacEventHandler r e s
  c.setMac (c.mac s).afterHandler s

def reportDone (h : RfReadings) (s : σ) : σ :=
  if h.irqDone then
    match (c.mac s).radioMacState with
    | .tx => c.radioMacEvent h.readings .tx s
    | .rx => c.radioMacEvent h.readings .rx s
    | _ => s
  else s

def reportTimeout (h : RfReadings) (s : σ) : σ :=
  if h.irqTimeout then c.radioMacEvent h.readings .rxTimeout s else s

/-- The strobe branch of ISR(RF): `none` is one of its early returns. -/
def reportStrobe (h : RfReadings) (s : σ) : Option σ :=
  if (c.mac s).strobe then
    if (c.mac s).radioMacState = .tx then none
    else if (c.mac s).radioMacState = .rx ∧ h.marcstateRx ∧ h.sfd then none
    else if (c.mac s).radioMacState = .rx ∧ h.marcstateRx ∧ (c.mac s).mcsm2 ≠ 7 ∧ h.worevt1Low then
      none
    else some (c.radioMacEvent h.readings .strobe s)
  else some s

def reportErrors (h : RfReadings) (s : σ) : σ :=
  c.setMac { c.mac s with
    radioTxUnderflowOccurred := h.irqTxunf || (c.mac s).radioTxUnderflowOccurred
    radioRxOverflowOccurred := h.irqRxovf || (c.mac s).radioRxOverflowOccurred } s

def isrRf (h : RfReadings) (s : σ) : σ :=
  let s := c.reportDone h s
  let s := c.reportTimeout h s
  match c.reportStrobe h s with
  | none => s
  | some s => c.reportErrors h s

/-- A property kept by every event that the interrupt may report and by the two error bits is kept
by every run of the interrupt. -/
theorem isrRf_preserves {P : σ → Prop} (h : RfReadings)
    (hevent : ∀ e s, P s → (c.mac s).Reports e → P (c.radioMacEvent h.readings e s))
    (herrors : ∀ s, P s → P (c.reportErrors h s)) {s : σ} (hs : P s) : P (c.isrRf h s) := by
  have hdone : P (c.reportDone h s) := by
    unfold reportDone
    split
    · split
      · rename_i hst
        exact hevent .tx s hs hst
      · rename_i hst
        exact hevent .rx s hs hst
      · exact hs
    · exact hs
  have htimeout : P (c.reportTimeout h (c.reportDone h s)) := by
    unfold reportTimeout
    split
    · exact hevent .rxTimeout _ hdone trivial
    · exact hdone
  change P (match c.reportStrobe h (c.reportTimeout h (c.reportDone h s)) with
    | none => c.reportTimeout h (c.reportDone h s)
    | some s => c.reportErrors h s)
  generalize c.reportTimeout h (c.reportDone h s) = u at htimeout ⊢
  cases hst : c.reportStrobe h u with
  | none => exact htimeout
  | some v =>
      have hv : P v := by
        unfold reportStrobe at hst
        split at hst
        · rename_i hstrobe
          split at hst
          · cases hst
          · rename_i htx
            split at hst
            · cases hst
            · split at hst
              · cases hst
              · obtain rfl := Option.some.inj hst
                exact hevent .strobe u htimeout ⟨hstrobe, htx⟩
        · obtain rfl := Option.some.inj hst
          exact htimeout
      exact herrors v hv

section Projection

variable {τ : Type} {d : Client τ ρ} {π : σ → τ}

/-- A view of the state that commutes with the MAC variables and the handler commutes with the
interrupt. -/
theorem isrRf_map (hmac : ∀ s, d.mac (π s) = c.mac s)
    (hset : ∀ m s, π (c.setMac m s) = d.setMac m (π s))
    (hhandler : ∀ r e s, π (c.radioMacEventHandler r e s) = d.radioMacEventHandler r e (π s))
    (h : RfReadings) (s : σ) : π (c.isrRf h s) = d.isrRf h (π s) := by
  have hevent : ∀ r e s, π (c.radioMacEvent r e s) = d.radioMacEvent r e (π s) := by
    intro r e s
    simp only [radioMacEvent, hset, hhandler, ← hmac]
  have hdone : ∀ s, π (c.reportDone h s) = d.reportDone h (π s) := by
    intro s
    unfold reportDone
    rw [hmac]
    split
    · split
      · exact hevent _ _ s
      · exact hevent _ _ s
      · rfl
    · rfl
  have htimeout : ∀ s, π (c.reportTimeout h s) = d.reportTimeout h (π s) := by
    intro s
    unfold reportTimeout
    split
    · exact hevent _ _ s
    · rfl
  have hstrobe : ∀ s, (c.reportStrobe h s).map π = d.reportStrobe h (π s) := by
    intro s
    unfold reportStrobe
    rw [hmac]
    split_ifs
    · rfl
    · rfl
    · rfl
    · exact congrArg some (hevent _ _ s)
    · rfl
  have herrors : ∀ s, π (c.reportErrors h s) = d.reportErrors h (π s) := by
    intro s
    rw [reportErrors, hset, ← hmac, reportErrors]
  unfold isrRf
  simp only
  rw [← hdone, ← htimeout, ← hstrobe]
  cases c.reportStrobe h (c.reportTimeout h (c.reportDone h s)) with
  | none => rfl
  | some t => exact herrors t

end Projection

end Client
end WixelSdk.RadioMac
