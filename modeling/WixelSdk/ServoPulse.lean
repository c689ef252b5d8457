import WixelSdk.Servo

/-!
# The pulses of the servo library

The pins as Timer 1 and the interrupt of `servo.c` drive them. A timer period begins with an
overflow and the interrupt, which is over before a pulse of this period can begin. The compare
registers are buffered: what has been written to them takes effect at the next overflow. A pin that
no peripheral controls has the level of its latch, if it is an output.
-/

namespace WixelSdk.Servo
open Transition

/-! ### The pins -/

def bit (x : UInt8) (n : ℕ) : Bool := x.toBitVec.getLsbD n

@[simp] theorem bit_or (x y : UInt8) (n : ℕ) : bit (x ||| y) n = (bit x n || bit y n) := by
  simp [bit]

theorem bit_clear (x y : UInt8) {n : ℕ} (hn : n < 8) :
    bit (x &&& ~~~y) n = (bit x n && !bit y n) := by
  simp [bit, hn]

/-- Whether the pin is on port 1, and its number there. -/
abbrev Pin := Bool × Fin 8

/-- The bit of a pin in a pair of bytes for the two ports. -/
def pinBit (port0 port1 : UInt8) (a : Pin) : Bool := bit (if a.1 then port1 else port0) a.2

theorem pinBit_or (x y x' y' : UInt8) (a : Pin) :
    pinBit (x ||| x') (y ||| y') a = (pinBit x y a || pinBit x' y' a) := by
  unfold pinBit
  split <;> exact bit_or _ _ _

theorem pinBit_clear (x y x' y' : UInt8) (a : Pin) :
    pinBit (x &&& ~~~x') (y &&& ~~~y') a = (pinBit x y a && !pinBit x' y' a) := by
  unfold pinBit
  split <;> exact bit_clear _ _ a.2.isLt

@[simp] theorem pinBit_zero (a : Pin) : pinBit 0 0 a = false := by
  simp [pinBit, bit]

def pinOf (c : Fin maxServos) : Pin :=
  match c.val with
  | 0 => (false, ⟨2, by decide⟩)
  | 1 => (false, ⟨3, by decide⟩)
  | 2 => (false, ⟨4, by decide⟩)
  | 3 => (true, ⟨2, by decide⟩)
  | 4 => (true, ⟨1, by decide⟩)
  | _ => (true, ⟨0, Nat.succ_pos 7⟩)

theorem pinBit_pinMasks (c : Fin maxServos) (a : Pin) :
    pinBit (Servos.pinMasks c).1 (Servos.pinMasks c).2 a = decide (pinOf c = a) := by
  have hall : ∀ (c : Fin maxServos) (port1 : Bool) (n : Fin 8),
      pinBit (Servos.pinMasks c).1 (Servos.pinMasks c).2 (port1, n) =
        decide (pinOf c = (port1, n)) := by decide
  exact hall c a.1 a.2

def servoPins (pins : List UInt8) : List Pin :=
  (pins.take maxServos).map fun pin => pinOf (Servos.pinToInternalChannelNumber pin)

theorem mem_servoPins {pins : List UInt8} {a : Pin} : a ∈ servoPins pins ↔
    ∃ i : Fin maxServos, pins[i.val]?.map (fun pin => pinOf (Servos.pinToInternalChannelNumber pin)) =
      some a := by
  unfold servoPins
  rw [List.mem_iff_getElem?]
  constructor
  · rintro ⟨i, hi⟩
    rw [List.getElem?_map, List.getElem?_take] at hi
    split at hi
    · next hlt => exact ⟨⟨i, hlt⟩, hi⟩
    · cases hi
  · rintro ⟨i, hi⟩
    refine ⟨i, ?_⟩
    rw [List.getElem?_map, List.getElem?_take, if_pos i.isLt]
    exact hi

namespace Ports

variable (r : Ports)

def latch (a : Pin) : Bool := pinBit r.p0 r.p1 a

def output (a : Pin) : Bool := pinBit r.p0dir r.p1dir a

/-- A peripheral controls the pin. -/
def selected (a : Pin) : Bool := pinBit r.p0sel r.p1sel a

end Ports

def compareOf (t1cc : UInt16 × UInt16 × UInt16) (c : Fin maxServos) : UInt16 :=
  match c.val % 3 with
  | 0 => t1cc.1
  | 1 => t1cc.2.1
  | _ => t1cc.2.2

theorem compareOf_disabled :
    ∀ c : Fin maxServos, compareOf (0xFFFF, 0xFFFF, 0xFFFF) c = 0xFFFF := by
  decide

/-- The output is set when the count gets to the register and cleared at 0. With -1 or 0 there is
no pulse. -/
def pulseWidth (t1cc : UInt16) : ℕ := if t1cc = 0 ∨ t1cc = 0xFFFF then 0 else 65536 - t1cc.toNat

def pulse (position : UInt16) : ℕ := if position ≤ 1 then 0 else position.toNat

theorem pulseWidth_neg (position : UInt16) : pulseWidth (-position) = pulse position := by
  have hlt := position.toNat_lt
  unfold pulseWidth pulse
  simp only [← UInt16.toNat_inj, UInt16.le_iff_toNat_le, UInt16.toNat_neg]
  rcases Nat.eq_zero_or_pos position.toNat with hz | hpos
  · rw [hz]
    rfl
  · rw [Nat.mod_eq_of_lt (by simp only [UInt16.size]; omega)]
    simp only [UInt16.size, UInt16.toNat_zero, UInt16.toNat_one, UInt16.reduceToNat]
    split_ifs <;> omega

/-- The interrupt of a servo period with whose timer period the pulse comes. -/
def slot (a : Pin) : ℕ := if a.1 then 4 else 1

theorem slot_eq (a : Pin) : (a.1 = false ∧ slot a = 1) ∨ (a.1 = true ∧ slot a = 4) := by
  unfold slot
  cases a.1
  · exact .inl ⟨rfl, rfl⟩
  · exact .inr ⟨rfl, rfl⟩

theorem compareOf_port0 (f : Fin maxServos → UInt16) :
    ∀ c, slot (pinOf c) = 1 → compareOf (f 0, f 1, f 2) c = f c
  | 0, _ | 1, _ | 2, _ => rfl
  | 3, h | 4, h | 5, h => absurd h (by decide)

theorem compareOf_port1 (f : Fin maxServos → UInt16) :
    ∀ c, slot (pinOf c) = 4 → compareOf (f 3, f 4, f 5) c = f c
  | 3, _ | 4, _ | 5, _ => rfl
  | 0, h | 1, h | 2, h => absurd h (by decide)

def Servos.used (s : Servos) (a : Pin) : Bool := pinBit s.servoPinsOnPort0 s.servoPinsOnPort1 a

/-! ### The timer -/

/-- The pulses of a timer period, and the positions that the interrupt left at its beginning. -/
structure Period where
  widths : Fin maxServos → ℕ
  positions : Fin maxServos → UInt16

structure Timer1 where
  servos : Servos
  /-- The compare values of this timer period. -/
  compare : UInt16 × UInt16 × UInt16
  t1if : Bool
  /-- The pins that were given to `servosStart` last. -/
  pins : List Pin
  /-- All pins that have been given to it. -/
  ever : List Pin
  /-- The timer periods since `servosStart` was called. -/
  periods : List Period

namespace Timer1

inductive Action
  | setTarget (servoNum : Fin maxServos) (target : UInt16)
  | setSpeed (servoNum : Fin maxServos) (speed : UInt16)
  | overflow
  | start (pins : Option (List UInt8))
  | stop

variable (p : Timer1)

def width (c : Fin maxServos) : ℕ :=
  if p.servos.selected (pinOf c) = true ∧ p.servos.t1cfg = (pinOf c).1 then
    pulseWidth (compareOf p.compare c)
  else 0

def interrupt : Timer1 :=
  let q := { p with servos := p.servos.isrT1, t1if := false }
  { q with periods := q.periods ++ [⟨q.width, fun c => (q.servos.servoData c).position⟩] }

/-- The buffered values take effect. -/
def reload : Timer1 := { p with compare := p.servos.t1cc }

/-- `servosStop` turns the interrupt off and waits for the timer to overflow, and T1IF stays set. -/
def stop : Timer1 :=
  if p.servos.servosStartedFlag then
    { p.reload with servos := p.servos.servosStop, t1if := true }
  else p

/-- An interrupt that has been pending since `servosStop` takes place as soon as it is enabled. -/
def start (pins : Option (List UInt8)) : Timer1 :=
  let servos := p.servos.servosStart pins
  let q : Timer1 := {
    servos := servos
    compare := servos.t1cc
    t1if := p.stop.t1if
    pins := pins.elim p.pins servoPins
    ever := p.ever ++ pins.elim [] servoPins
    periods := [] }
  if q.t1if then q.interrupt else q

def step (p : Timer1) : Action → Option Timer1
  | .setTarget servoNum target =>
      some { p with servos := p.servos.servoSetTargetHighRes servoNum target }
  | .setSpeed servoNum speed => some { p with servos := p.servos.servoSetSpeed servoNum speed }
  | .overflow => if p.servos.servosStartedFlag then some p.reload.interrupt else none
  | .start pins => some (p.start pins)
  | .stop => some p.stop

def powerUp (ports : Ports) : Timer1 := ⟨Servos.init ports, (0, 0, 0), false, [], [], []⟩

end Timer1

/-! ### The interrupt and the pins -/

namespace Servos

variable {s : Servos}

theorem foldl_updateServo_pins (l : List (Fin maxServos)) (s : Servos) :
    ∃ d moving, l.foldl updateServo s = { s with servoData := d, servosMovingFlag := moving } := by
  induction l generalizing s with
  | nil => exact ⟨s.servoData, s.servosMovingFlag, rfl⟩
  | cons i l ih =>
      obtain ⟨d, moving, h⟩ := ih (s.updateServo i)
      exact ⟨d, moving, h⟩

theorem isrT1_last (h : s.servoCounter.toNat = 6) :
    ∃ d moving, s.isrT1 =
      { s with servoCounter := 0, servoData := d, servosMovingFlag := moving } := by
  obtain ⟨d, moving, hd⟩ := foldl_updateServo_pins (List.finRange maxServos)
    { s with servoCounter := 0, servosMovingFlag := false }
  refine ⟨d, moving, ?_⟩
  simp only [isrT1, h]
  exact hd

theorem isrT1_p0sel : s.isrT1.p0sel =
    if s.servoCounter.toNat = 0 then s.p0sel ||| s.servoPinsOnPort0
    else if s.servoCounter.toNat = 2 then s.p0sel &&& ~~~s.servoPinsOnPort0 else s.p0sel := by
  by_cases hlast : s.servoCounter.toNat = 6
  · obtain ⟨d, moving, heq⟩ := isrT1_last hlast
    rw [heq, hlast]
    rfl
  · unfold isrT1
    split <;> simp_all

theorem isrT1_p1sel : s.isrT1.p1sel =
    if s.servoCounter.toNat = 3 then s.p1sel ||| s.servoPinsOnPort1
    else if s.servoCounter.toNat = 5 then s.p1sel &&& ~~~s.servoPinsOnPort1 else s.p1sel := by
  by_cases hlast : s.servoCounter.toNat = 6
  · obtain ⟨d, moving, heq⟩ := isrT1_last hlast
    rw [heq, hlast]
    rfl
  · unfold isrT1
    split <;> simp_all

/-- The pins of a port are the timer's from the interrupt before the pulse to the one after it. -/
theorem isrT1_selected {a : Pin} (ha : s.used a = true) :
    s.isrT1.selected a = if s.servoCounter.toNat + 1 = slot a then true
      else if s.servoCounter.toNat = slot a + 1 then false else s.selected a := by
  have hn := a.2.isLt
  rcases slot_eq a with ⟨hport, hslot⟩ | ⟨hport, hslot⟩
  · simp only [used, Ports.selected, pinBit, hport, hslot, isrT1_p0sel] at ha ⊢
    split_ifs <;> simp_all [bit_clear]
  · simp only [used, Ports.selected, pinBit, hport, hslot, isrT1_p1sel] at ha ⊢
    split_ifs <;> simp_all [bit_clear]

theorem isrT1_selected_of_unused {a : Pin} (ha : s.used a = false) :
    s.isrT1.selected a = s.selected a := by
  have hn := a.2.isLt
  cases hport : a.1
  · simp only [used, Ports.selected, pinBit, hport, isrT1_p0sel] at ha ⊢
    split_ifs <;> simp_all [bit_clear]
  · simp only [used, Ports.selected, pinBit, hport, isrT1_p1sel] at ha ⊢
    split_ifs <;> simp_all [bit_clear]

/-- What the interrupt does not write. -/
structure Kept (s t : Servos) : Prop where
  servosStartedFlag : t.servosStartedFlag = s.servosStartedFlag
  used : t.used = s.used
  latch : t.latch = s.latch
  output : t.output = s.output

theorem isrT1_kept (s : Servos) : Kept s s.isrT1 := by
  by_cases hlast : s.servoCounter.toNat = 6
  · obtain ⟨d, moving, heq⟩ := isrT1_last hlast
    rw [heq]
    exact ⟨rfl, rfl, rfl, rfl⟩
  · unfold isrT1
    split
    case h_7 h₆ => exact absurd h₆ hlast
    all_goals exact ⟨rfl, rfl, rfl, rfl⟩

theorem isrT1_used (a : Pin) : s.isrT1.used a = s.used a := congrFun s.isrT1_kept.used a

theorem isrT1_t1cfg : s.isrT1.t1cfg = if s.servoCounter.toNat = 0 then false
      else if s.servoCounter.toNat = 3 then true else s.t1cfg := by
  by_cases hlast : s.servoCounter.toNat = 6
  · obtain ⟨d, moving, heq⟩ := isrT1_last hlast
    rw [heq, hlast]
    rfl
  · unfold isrT1
    split <;> simp_all

theorem isrT1_t1cc : s.isrT1.t1cc =
    if s.servoCounter.toNat = 0 then ((s.servoData 0).positionReg, (s.servoData 1).positionReg,
      (s.servoData 2).positionReg)
    else if s.servoCounter.toNat = 3 then ((s.servoData 3).positionReg,
      (s.servoData 4).positionReg, (s.servoData 5).positionReg)
    else if s.servoCounter.toNat = 1 ∨ s.servoCounter.toNat = 4 then (0xFFFF, 0xFFFF, 0xFFFF)
    else s.t1cc := by
  by_cases hlast : s.servoCounter.toNat = 6
  · obtain ⟨d, moving, heq⟩ := isrT1_last hlast
    rw [heq, hlast]
    rfl
  · unfold isrT1
    split <;> simp_all

end Servos

/-! ### Every sequence of steps -/

namespace Timer1

variable {p : Timer1}

/-- What the interrupt has left for the next timer period. -/
structure Phase (p : Timer1) : Prop where
  selected : ∀ a, p.servos.used a = true → (p.servos.selected a = true ↔
    p.servos.servoCounter.toNat = slot a ∨ p.servos.servoCounter.toNat = slot a + 1)
  located : ∀ a, p.servos.servoCounter.toNat = slot a ∨ p.servos.servoCounter.toNat = slot a + 1 →
    p.servos.t1cfg = a.1
  loaded : ∀ c, p.servos.servoCounter.toNat = slot (pinOf c) →
    ∃ r, p.periods.getLast? = some r ∧ compareOf p.servos.t1cc c = -r.positions c
  idle : p.servos.servoCounter.toNat ≠ 1 → p.servos.servoCounter.toNat ≠ 4 →
    p.servos.t1cc = (0xFFFF, 0xFFFF, 0xFFFF)

/-- A timer period has the pulses of the positions that the interrupt before left, or none. -/
structure Train (p : Timer1) : Prop where
  on : ∀ n q, p.periods[n]? = some q → ∀ c, p.servos.used (pinOf c) = true → n % 7 = slot (pinOf c) →
    ∃ r, p.periods[n - 1]? = some r ∧ q.widths c = pulse (r.positions c)
  off : ∀ n q, p.periods[n]? = some q → ∀ c, p.servos.used (pinOf c) = true →
    n % 7 ≠ slot (pinOf c) → q.widths c = 0

structure Regular (ports : Ports) (p : Timer1) : Prop where
  steady : p.servos.Steady
  count : p.servos.servoCounter.toNat = p.periods.length % 7
  used : ∀ a, p.servos.used a = true ↔ a ∈ p.pins
  ever : ∀ a ∈ p.pins, a ∈ p.ever
  driven : ∀ a ∈ p.ever, p.servos.latch a = false ∧ p.servos.output a = true
  released : ∀ a ∈ p.ever, p.servos.servosStartedFlag = false ∨ a ∉ p.pins →
    p.servos.selected a = false
  phase : p.servos.servosStartedFlag = true → p.Phase
  train : p.Train
  outside : ∀ a ∉ p.ever, p.servos.latch a = ports.latch a ∧
    p.servos.output a = ports.output a ∧ p.servos.selected a = ports.selected a

variable {ports : Ports}

@[simp] theorem interrupt_servos (p : Timer1) : p.interrupt.servos = p.servos.isrT1 := rfl

theorem counter_isrT1 {s : Servos} (h : s.servoCounter.toNat ≤ 6) :
    s.isrT1.servoCounter.toNat = (s.servoCounter.toNat + 1) % 7 :=
  (Servos.iterate_isrT1 h 1).1

theorem compareOf_isrT1 {s : Servos} (h : s.Steady) {c : Fin maxServos}
    (hc : s.servoCounter.toNat + 1 = slot (pinOf c)) :
    compareOf s.isrT1.t1cc c = -(s.isrT1.servoData c).position := by
  have hne : s.servoCounter ≠ 6 := by
    rintro he
    rw [he] at hc
    rcases slot_eq (pinOf c) with ⟨-, hslot⟩ | ⟨-, hslot⟩ <;> rw [hslot] at hc <;> cases hc
  rw [(Servos.isrT1_of_ne hne).1, ← (h.sound c).positionReg, Servos.isrT1_t1cc]
  rcases slot_eq (pinOf c) with ⟨-, hslot⟩ | ⟨-, hslot⟩ <;> rw [hslot] at hc
  · rw [if_pos (Nat.succ.inj hc)]
    exact compareOf_port0 (fun i => (s.servoData i).positionReg) c hslot
  · rw [if_neg (by omega), if_pos (Nat.succ.inj hc)]
    exact compareOf_port1 (fun i => (s.servoData i).positionReg) c hslot

theorem Phase.interrupt (h : p.Phase) (hs : p.servos.Steady) : p.interrupt.Phase where
  selected a ha := by
    have hk := hs.counter
    rw [interrupt_servos, Servos.isrT1_used] at ha
    rw [interrupt_servos, counter_isrT1 hk, Servos.isrT1_selected ha]
    have hbefore := h.selected a ha
    rcases slot_eq a with ⟨-, hslot⟩ | ⟨-, hslot⟩ <;> rw [hslot] at hbefore ⊢ <;>
      split_ifs with h₁ h₂
    all_goals
      simp only [hbefore, true_iff, false_iff]
      omega
  located a ha := by
    have hk := hs.counter
    rw [interrupt_servos, counter_isrT1 hk] at ha
    rw [interrupt_servos, Servos.isrT1_t1cfg]
    have hbefore := h.located a
    rcases slot_eq a with ⟨hport, hslot⟩ | ⟨hport, hslot⟩ <;> rw [hport, hslot] at hbefore <;>
      rw [hport] <;> rw [hslot] at ha <;> split_ifs with h₁ h₂
    all_goals first | rfl | omega | exact hbefore (by omega)
  loaded c hc := by
    rw [interrupt_servos, counter_isrT1 hs.counter] at hc
    refine ⟨_, List.getLast?_concat, compareOf_isrT1 hs ?_⟩
    have hk := hs.counter
    rcases slot_eq (pinOf c) with ⟨-, hslot⟩ | ⟨-, hslot⟩ <;> omega
  idle h₁ h₄ := by
    have hk := hs.counter
    rw [interrupt_servos, counter_isrT1 hk] at h₁ h₄
    rw [interrupt_servos, Servos.isrT1_t1cc, if_neg (by omega), if_neg (by omega)]
    split_ifs with h₅
    · rfl
    · exact h.idle (by omega) (by omega)

theorem width_of_disabled (h : p.compare = (0xFFFF, 0xFFFF, 0xFFFF)) (c : Fin maxServos) :
    p.width c = 0 := by
  unfold width
  rw [h, compareOf_disabled]
  split_ifs <;> rfl

/-- The pulse of a channel comes in the timer period after the one that loads its register. -/
theorem width_interrupt_on (h : p.Phase) (hs : p.servos.Steady)
    (hcompare : p.compare = p.servos.t1cc) {c : Fin maxServos} (hused : p.servos.used (pinOf c) = true)
    (hc : p.servos.servoCounter.toNat = slot (pinOf c)) :
    ∃ r, p.periods.getLast? = some r ∧ p.interrupt.width c = pulse (r.positions c) := by
  obtain ⟨r, hr, hreg⟩ := h.loaded c hc
  refine ⟨r, hr, ?_⟩
  have hafter := h.interrupt hs
  have hcounter : p.interrupt.servos.servoCounter.toNat = slot (pinOf c) + 1 := by
    rw [interrupt_servos, counter_isrT1 hs.counter, hc]
    rcases slot_eq (pinOf c) with ⟨-, hslot⟩ | ⟨-, hslot⟩ <;> rw [hslot]
  have hselected : p.interrupt.servos.selected (pinOf c) = true :=
    (hafter.selected (pinOf c) (by rw [interrupt_servos, Servos.isrT1_used, hused])).mpr (.inr hcounter)
  rw [width, if_pos ⟨hselected, hafter.located (pinOf c) (.inr hcounter)⟩]
  change pulseWidth (compareOf p.compare c) = _
  rw [hcompare, hreg, pulseWidth_neg]

theorem width_interrupt_off (h : p.Phase) (hs : p.servos.Steady)
    (hcompare : p.compare = p.servos.t1cc) {c : Fin maxServos} (hused : p.servos.used (pinOf c) = true)
    (hc : p.servos.servoCounter.toNat ≠ slot (pinOf c)) :
    p.interrupt.width c = 0 := by
  by_cases hidle : p.servos.servoCounter.toNat ≠ 1 ∧ p.servos.servoCounter.toNat ≠ 4
  · exact width_of_disabled (p := p.interrupt) (hcompare.trans (h.idle hidle.1 hidle.2)) c
  · -- the registers are loaded for the other port
    have hunselected : ¬ p.interrupt.servos.selected (pinOf c) = true := by
      rw [(h.interrupt hs).selected (pinOf c) (by rw [interrupt_servos, Servos.isrT1_used, hused]),
        interrupt_servos, counter_isrT1 hs.counter]
      have hk := hs.counter
      rcases slot_eq (pinOf c) with ⟨-, hslot⟩ | ⟨-, hslot⟩ <;> rw [hslot] at hc ⊢ <;> omega
    rw [width, if_neg fun hand => hunselected hand.1]

theorem getElem?_interrupt {n : ℕ} {q : Period} (h : p.interrupt.periods[n]? = some q) :
    p.periods[n]? = some q ∨ n = p.periods.length ∧ q.widths = p.interrupt.width := by
  rcases Nat.lt_or_ge n p.periods.length with hlt | hge
  · exact .inl ((List.getElem?_append_left hlt).symm.trans h)
  · have hlast : n < p.interrupt.periods.length := (List.getElem?_eq_some_iff.mp h).1
    have hlength : p.interrupt.periods.length = p.periods.length + 1 := List.length_append
    obtain rfl : n = p.periods.length := by omega
    have hq := List.getElem?_concat_length.symm.trans h
    exact .inr ⟨rfl, by rw [← Option.some.inj hq]; rfl⟩

theorem getElem?_periods {n : ℕ} {r : Period} (h : p.periods[n]? = some r) :
    p.interrupt.periods[n]? = some r :=
  (List.getElem?_append_left (List.getElem?_eq_some_iff.mp h).1).trans h

theorem Train.interrupt (h : p.Train) (hphase : p.Phase) (hs : p.servos.Steady)
    (hcompare : p.compare = p.servos.t1cc)
    (hcount : p.servos.servoCounter.toNat = p.periods.length % 7) : p.interrupt.Train where
  on n q hq c hc hn := by
    rw [interrupt_servos, Servos.isrT1_used] at hc
    rcases getElem?_interrupt hq with hold | ⟨rfl, hwidths⟩
    · obtain ⟨r, hr, hw⟩ := h.on n q hold c hc hn
      exact ⟨r, getElem?_periods hr, hw⟩
    · obtain ⟨r, hr, hw⟩ := width_interrupt_on hphase hs hcompare hc (hcount.trans hn)
      rw [List.getLast?_eq_getElem?] at hr
      exact ⟨r, getElem?_periods hr, by rw [hwidths, hw]⟩
  off n q hq c hc hn := by
    rw [interrupt_servos, Servos.isrT1_used] at hc
    rcases getElem?_interrupt hq with hold | ⟨rfl, hwidths⟩
    · exact h.off n q hold c hc hn
    · rw [hwidths, width_interrupt_off hphase hs hcompare hc (fun he => hn (hcount.symm.trans he))]

theorem Regular.interrupt (h : p.Regular ports) (hstarted : p.servos.servosStartedFlag = true)
    (hcompare : p.compare = p.servos.t1cc) : p.interrupt.Regular ports where
  steady := h.steady.isrT1
  count := by
    have hlength : p.interrupt.periods.length = p.periods.length + 1 := List.length_append
    rw [interrupt_servos, counter_isrT1 h.steady.counter, h.count, hlength, Nat.mod_add_mod]
  used a := by
    rw [interrupt_servos, Servos.isrT1_used]
    exact h.used a
  ever := h.ever
  driven a ha := by
    rw [interrupt_servos, p.servos.isrT1_kept.latch, p.servos.isrT1_kept.output]
    exact h.driven a ha
  released a ha hfree := by
    rw [interrupt_servos, p.servos.isrT1_kept.servosStartedFlag] at hfree
    have hout := hfree.resolve_left (by rw [hstarted]; exact Bool.noConfusion)
    have hunused : p.servos.used a = false := Bool.eq_false_iff.mpr (mt (h.used a).mp hout)
    rw [interrupt_servos, Servos.isrT1_selected_of_unused hunused]
    exact h.released a ha (.inr hout)
  phase _ := (h.phase hstarted).interrupt h.steady
  train := h.train.interrupt (h.phase hstarted) h.steady hcompare h.count
  outside a ha := by
    have hunused : p.servos.used a = false :=
      Bool.eq_false_iff.mpr (mt (h.used a).mp (mt (h.ever a) ha))
    rw [interrupt_servos, p.servos.isrT1_kept.latch, p.servos.isrT1_kept.output,
      Servos.isrT1_selected_of_unused hunused]
    exact h.outside a ha

/-! ### Starting and stopping -/

theorem servosStop_pins (s : Servos) (a : Pin) :
    s.servosStop.used a = s.used a ∧ s.servosStop.latch a = s.latch a ∧
      s.servosStop.output a = s.output a ∧ s.servosStop.selected a =
        (s.selected a && !(s.servosStartedFlag && s.used a)) := by
  unfold Servos.servosStop
  split
  · next hstarted =>
      refine ⟨rfl, rfl, rfl, ?_⟩
      rw [hstarted, Bool.true_and]
      exact pinBit_clear _ _ _ _ a
  · next hstopped =>
      rw [Bool.eq_false_iff.mpr hstopped]
      exact ⟨rfl, rfl, rfl, (Bool.and_true _).symm⟩

/-- The loop of `servosStart` has come to the pin. -/
def hits (pins : List UInt8) (a : Pin) (i : Fin maxServos) : Bool :=
  decide (pins[i.val]?.map (fun pin => pinOf (Servos.pinToInternalChannelNumber pin)) = some a)

theorem initServo_pins (s : Servos) (pins : List UInt8) (i : Fin maxServos) (a : Pin) :
    (s.initServo pins i).used a = (s.used a || hits pins a i) ∧
      (s.initServo pins i).latch a = (s.latch a && !hits pins a i) ∧
      (s.initServo pins i).output a = s.output a ∧
      (s.initServo pins i).selected a = s.selected a := by
  unfold Servos.initServo hits
  split
  · next pin hpin =>
      have hmask := pinBit_pinMasks (Servos.pinToInternalChannelNumber pin) a
      simp only [hpin, Option.map_some, Option.some.injEq, ← hmask]
      exact ⟨pinBit_or _ _ _ _ a, pinBit_clear _ _ _ _ a, rfl, rfl⟩
  · next hnone => simp [hnone, Servos.used, Ports.latch, Ports.output, Ports.selected]

theorem foldl_initServo_pins (pins : List UInt8) (a : Pin) (l : List (Fin maxServos)) (s : Servos) :
    let t := l.foldl (fun (s : Servos) i => s.initServo pins i) s
    t.used a = (s.used a || l.any (hits pins a)) ∧
      t.latch a = (s.latch a && !l.any (hits pins a)) ∧ t.output a = s.output a ∧
      t.selected a = s.selected a := by
  induction l generalizing s with
  | nil => simp
  | cons i l ih =>
      obtain ⟨hused, hlatch, houtput, hselected⟩ := initServo_pins s pins i a
      obtain ⟨hused', hlatch', houtput', hselected'⟩ := ih (s.initServo pins i)
      refine ⟨hused'.trans ?_, hlatch'.trans ?_, houtput'.trans houtput, hselected'.trans hselected⟩
      · rw [hused, List.any_cons, Bool.or_assoc]
      · rw [hlatch, List.any_cons, Bool.not_or, Bool.and_assoc]

theorem any_hits (pins : List UInt8) (a : Pin) :
    (List.finRange maxServos).any (hits pins a) = decide (a ∈ servoPins pins) := by
  rw [Bool.eq_iff_iff, List.any_eq_true, decide_eq_true_eq, mem_servoPins]
  simp [hits]

theorem servosStart_pins (s : Servos) (pins : List UInt8) (a : Pin) :
    let t := s.servosStart (some pins)
    t.used a = decide (a ∈ servoPins pins) ∧
      t.latch a = (s.latch a && !decide (a ∈ servoPins pins)) ∧
      t.output a = (s.output a || decide (a ∈ servoPins pins)) ∧
      t.selected a = (s.servosStop.selected a && !decide (a ∈ servoPins pins)) := by
  obtain ⟨-, hlatch, houtput, -⟩ := servosStop_pins s a
  obtain ⟨hused', hlatch', houtput', hselected'⟩ := foldl_initServo_pins pins a
    (List.finRange maxServos) { s.servosStop with servoPinsOnPort0 := 0, servoPinsOnPort1 := 0 }
  rw [any_hits] at hused' hlatch'
  have hnone : Servos.used { s.servosStop with servoPinsOnPort0 := 0, servoPinsOnPort1 := 0 } a =
      false := pinBit_zero a
  rw [hnone, Bool.false_or] at hused'
  refine ⟨hused', ?_, ?_, ?_⟩
  · rw [← hlatch]
    exact hlatch'
  · rw [← hused', ← houtput]
    exact (pinBit_or _ _ _ _ a).trans (congrArg (· || _) houtput')
  · rw [← hused']
    exact (pinBit_clear _ _ _ _ a).trans (congrArg (· && _) hselected')

theorem servosStop_servoData (s : Servos) : s.servosStop.servoData = s.servoData ∧
    s.servosStop.servosMovingFlag = s.servosMovingFlag ∧
    s.servosStop.servoCounter = s.servoCounter := by
  unfold Servos.servosStop
  split <;> exact ⟨rfl, rfl, rfl⟩

theorem steady_servosStop {s : Servos} (h : s.Steady) : s.servosStop.Steady := by
  obtain ⟨hdata, hmoving, hcounter⟩ := servosStop_servoData s
  refine ⟨hcounter ▸ h.counter, fun i => ?_, fun hm i => ?_⟩
  · rw [hdata]
    exact h.sound i
  · rw [hdata]
    exact h.still (hmoving.symm.trans hm) i

theorem Regular.unused (h : p.Regular ports) {a : Pin} (ha : a ∉ p.ever) :
    p.servos.used a = false := Bool.eq_false_iff.mpr (mt (h.used a).mp (mt (h.ever a) ha))

/-- When the servos are stopped, all pins that have ever been used drive low. -/
theorem Regular.servosStop (h : p.Regular ports) {a : Pin} (ha : a ∈ p.ever) :
    p.servos.servosStop.selected a = false := by
  rw [(servosStop_pins p.servos a).2.2.2]
  by_cases hused : p.servos.servosStartedFlag = true ∧ p.servos.used a = true
  · rw [hused.1, hused.2]
    exact Bool.and_false _
  · rw [h.released a ha, Bool.false_and]
    rw [not_and_or, Bool.not_eq_true, h.used a] at hused
    exact hused

theorem Regular.servosStop_outside (h : p.Regular ports) {a : Pin} (ha : a ∉ p.ever) :
    p.servos.servosStop.latch a = ports.latch a ∧ p.servos.servosStop.output a = ports.output a ∧
      p.servos.servosStop.selected a = ports.selected a := by
  obtain ⟨-, hlatch, houtput, hselected⟩ := servosStop_pins p.servos a
  rw [h.unused ha, Bool.and_false, Bool.not_false, Bool.and_true] at hselected
  rw [hlatch, houtput, hselected]
  exact h.outside a ha

theorem Regular.stop (h : p.Regular ports) : p.stop.Regular ports := by
  unfold Timer1.stop
  split
  · next hstarted =>
      have hstop : p.servos.servosStop =
          { p.servos.releasePins with servosStartedFlag := false } := if_pos hstarted
      have hused : ∀ a, p.servos.servosStop.used a = p.servos.used a :=
        fun a => (servosStop_pins p.servos a).1
      refine
        { steady := steady_servosStop h.steady
          count := ?_
          used := fun a => ?_
          ever := h.ever
          driven := fun a ha => ?_
          released := fun a ha _ => h.servosStop ha
          phase := fun hf => ?_
          train := ⟨fun n q hq c hc => ?_, fun n q hq c hc => ?_⟩
          outside := fun a ha => h.servosStop_outside ha }
      · exact (congrArg UInt8.toNat (servosStop_servoData p.servos).2.2).trans h.count
      · exact (hused a).symm ▸ h.used a
      · obtain ⟨-, hlatch, houtput, -⟩ := servosStop_pins p.servos a
        rw [hlatch, houtput]
        exact h.driven a ha
      · change p.servos.servosStop.servosStartedFlag = true at hf
        rw [hstop] at hf
        cases hf
      · exact h.train.on n q hq c ((hused _).symm.trans hc)
      · exact h.train.off n q hq c ((hused _).symm.trans hc)
  · exact h

/-- No pin that has ever been used is selected when `servosStart` returns, until the first
interrupt. -/
theorem Regular.servosStart (h : p.Regular ports) (pins : Option (List UInt8)) :
    let t := p.servos.servosStart pins
    t.Steady ∧ (∀ a, t.used a = true ↔ a ∈ pins.elim p.pins servoPins) ∧
      (∀ a ∈ p.ever ++ pins.elim [] servoPins,
        t.latch a = false ∧ t.output a = true ∧ t.selected a = false) ∧
      ∀ a ∉ p.ever ++ pins.elim [] servoPins, t.latch a = ports.latch a ∧
        t.output a = ports.output a ∧ t.selected a = ports.selected a := by
  cases pins with
  | none =>
      have hs := steady_servosStop h.steady
      refine ⟨⟨Nat.zero_le _, hs.sound, hs.still⟩, fun a => ?_, fun a ha => ?_, fun a ha => ?_⟩
      · exact (servosStop_pins p.servos a).1.symm ▸ h.used a
      · have hever : a ∈ p.ever := by simpa using ha
        obtain ⟨-, hlatch, houtput, -⟩ := servosStop_pins p.servos a
        obtain ⟨hlow, hdir⟩ := h.driven a hever
        exact ⟨hlatch.trans hlow, houtput.trans hdir, h.servosStop hever⟩
      · exact h.servosStop_outside (by simpa using ha)
  | some pins =>
      refine ⟨Servos.steady_servosStart p.servos pins, fun a => ?_, fun a ha => ?_, fun a ha => ?_⟩
      · rw [(servosStart_pins p.servos pins a).1, decide_eq_true_eq]
        rfl
      · obtain ⟨-, hlatch, houtput, hselected⟩ := servosStart_pins p.servos pins a
        by_cases hnew : a ∈ servoPins pins
        · rw [hlatch, houtput, hselected, decide_eq_true hnew]
          simp
        · have hever : a ∈ p.ever := (List.mem_append.mp ha).resolve_right hnew
          obtain ⟨hlow, hdir⟩ := h.driven a hever
          rw [hlatch, houtput, hselected, hlow, hdir, h.servosStop hever]
          simp
      · obtain ⟨-, hlatch, houtput, hselected⟩ := servosStart_pins p.servos pins a
        obtain ⟨hever, hnew⟩ : a ∉ p.ever ∧ a ∉ servoPins pins := by simpa using ha
        obtain ⟨-, -, hstop⟩ := h.servosStop_outside hever
        obtain ⟨hold, hdir, -⟩ := h.outside a hever
        rw [hlatch, houtput, hselected, decide_eq_false hnew, hold, hdir, hstop]
        simp

theorem Regular.start (h : p.Regular ports) (pins : Option (List UInt8)) :
    (p.start pins).Regular ports := by
  obtain ⟨hsteady, hused, hlow, houtside⟩ := h.servosStart pins
  have hever : ∀ a ∈ pins.elim p.pins servoPins, a ∈ p.ever ++ pins.elim [] servoPins := by
    intro a ha
    cases pins with
    | none => exact List.mem_append_left _ (h.ever a ha)
    | some pins => exact List.mem_append_right _ ha
  have hready : ∀ t1if, Regular ports ⟨p.servos.servosStart pins,
      (p.servos.servosStart pins).t1cc, t1if, pins.elim p.pins servoPins,
      p.ever ++ pins.elim [] servoPins, []⟩ := by
    intro t1if
    refine
      { steady := hsteady
        count := rfl
        used := hused
        ever := hever
        driven := fun a ha => ⟨(hlow a ha).1, (hlow a ha).2.1⟩
        released := fun a ha _ => (hlow a ha).2.2
        phase := fun _ => ⟨fun a ha => ?_, fun a ha => ?_, fun c hc => ?_, fun _ _ => rfl⟩
        train := ⟨nofun, nofun⟩
        outside := houtside }
    · rw [(hlow a (hever a ((hused a).mp ha))).2.2]
      change false = true ↔ 0 = slot a ∨ 0 = slot a + 1
      rcases slot_eq a with ⟨-, hslot⟩ | ⟨-, hslot⟩ <;> rw [hslot] <;> decide
    · change 0 = slot a ∨ 0 = slot a + 1 at ha
      rcases slot_eq a with ⟨-, hslot⟩ | ⟨-, hslot⟩ <;> rw [hslot] at ha <;> omega
    · change 0 = slot (pinOf c) at hc
      rcases slot_eq (pinOf c) with ⟨-, hslot⟩ | ⟨-, hslot⟩ <;> rw [hslot] at hc <;> cases hc
  unfold Timer1.start
  dsimp only
  split
  · exact (hready _).interrupt rfl rfl
  · exact hready _

/-- The setters write only the data of the servos and the flag. -/
theorem Regular.setServo (h : p.Regular ports) {d : Fin maxServos → ServoData} {moving : Bool}
    (hs : Servos.Steady { p.servos with servoData := d, servosMovingFlag := moving }) :
    Regular ports
      { p with servos := { p.servos with servoData := d, servosMovingFlag := moving } } :=
  ⟨hs, h.count, h.used, h.ever, h.driven, h.released, fun hf =>
    ⟨(h.phase hf).selected, (h.phase hf).located, (h.phase hf).loaded, (h.phase hf).idle⟩,
    ⟨h.train.on, h.train.off⟩, h.outside⟩

theorem servoSetTargetHighRes_eq (s : Servos) (n : Fin maxServos) (target : UInt16) :
    ∃ d moving, s.servoSetTargetHighRes n target =
      { s with servoData := d, servosMovingFlag := moving } := by
  unfold Servos.servoSetTargetHighRes
  dsimp only
  split_ifs
  · exact ⟨_, s.servosMovingFlag, rfl⟩
  · exact ⟨_, true, rfl⟩
  · exact ⟨_, s.servosMovingFlag, rfl⟩

theorem Regular.step {q : Timer1} {a : Action} (h : p.Regular ports) (hq : p.step a = some q) :
    q.Regular ports := by
  cases a with
  | setTarget n target =>
      obtain rfl := Option.some.inj hq
      obtain ⟨d, moving, heq⟩ := servoSetTargetHighRes_eq p.servos n target
      have hs := h.steady.servoSetTargetHighRes n target
      rw [heq] at hs ⊢
      exact h.setServo hs
  | setSpeed n speed =>
      obtain rfl := Option.some.inj hq
      exact h.setServo (h.steady.servoSetSpeed n speed)
  | overflow =>
      obtain ⟨hstarted, hinterrupt⟩ := Option.ite_none_right_eq_some.mp hq
      obtain rfl := Option.some.inj hinterrupt
      have hreload : p.reload.Regular ports := ⟨h.steady, h.count, h.used, h.ever, h.driven,
        h.released, fun hf =>
        ⟨(h.phase hf).selected, (h.phase hf).located, (h.phase hf).loaded, (h.phase hf).idle⟩,
        ⟨h.train.on, h.train.off⟩, h.outside⟩
      exact hreload.interrupt hstarted rfl
  | start pins =>
      obtain rfl := Option.some.inj hq
      exact h.start pins
  | stop =>
      obtain rfl := Option.some.inj hq
      exact h.stop

theorem regular_powerUp (ports : Ports) : (powerUp ports).Regular ports where
  steady := ⟨Nat.zero_le _, fun _ => ⟨Iff.rfl, (UInt16.neg_eq_not_add 0).symm⟩, fun _ _ => rfl⟩
  count := rfl
  used a := iff_of_false (Bool.eq_false_iff.mp (pinBit_zero a)) List.not_mem_nil
  ever := nofun
  driven := nofun
  released := nofun
  phase := nofun
  train := ⟨nofun, nofun⟩
  outside _ _ := ⟨rfl, rfl, rfl⟩

/-- The pulses, for every order of the library's functions and the timer periods, whatever is in the
registers of the ports at first. The first pulses come after the second interrupt, and every seventh
timer period has the next ones; each is as long as the position that the interrupt before has left,
whatever the main loop has set since. Otherwise the pins in use are low: the timer has no pulse for
them, or it does not control them and they are outputs that drive low, as are pins that have been in
use before. All other pins are left alone. -/
theorem servo_pulses {ports : Ports} (hr : Run step (fun _ _ => True) (powerUp ports) p) :
    (∀ n q, p.periods[n]? = some q → ∀ c, pinOf c ∈ p.pins → (n % 7 = slot (pinOf c) →
      ∃ r, p.periods[n - 1]? = some r ∧ q.widths c = pulse (r.positions c)) ∧
      (n % 7 ≠ slot (pinOf c) → q.widths c = 0)) ∧
    (∀ a ∈ p.pins, a ∈ p.ever ∧ (p.servos.selected a = true →
      p.servos.servosStartedFlag = true ∧ p.servos.t1cfg = a.1)) ∧
    (∀ a ∈ p.ever, p.servos.latch a = false ∧ p.servos.output a = true ∧
      (p.servos.servosStartedFlag = false ∨ a ∉ p.pins → p.servos.selected a = false)) ∧
    ∀ a ∉ p.ever, p.servos.latch a = ports.latch a ∧ p.servos.output a = ports.output a ∧
      p.servos.selected a = ports.selected a := by
  have h : p.Regular ports := Run.invariant hr (regular_powerUp ports)
    fun _ _ _ h _ hq => Regular.step h hq
  refine ⟨fun n q hq c hc => ?_, fun a ha => ⟨h.ever a ha, fun hselected => ?_⟩, fun a ha => ?_,
    h.outside⟩
  · rw [← h.used] at hc
    exact ⟨h.train.on n q hq c hc, h.train.off n q hq c hc⟩
  · have hstarted : p.servos.servosStartedFlag = true := by
      by_contra hstopped
      rw [h.released a (h.ever a ha) (.inl (Bool.eq_false_iff.mpr hstopped))] at hselected
      cases hselected
    have hphase := h.phase hstarted
    exact ⟨hstarted, hphase.located a ((hphase.selected a ((h.used a).mpr ha)).mp hselected)⟩
  · obtain ⟨hlatch, houtput⟩ := h.driven a ha
    exact ⟨hlatch, houtput, h.released a ha⟩

/-- A servo on P1_0 goes from 1000 to 1500 by at most 300 in each servo period, and one on P0_2 gets
a target later. -/
def twoServos : List Action :=
  [.start (some [10, 2]), .setTarget 0 1000, .setSpeed 0 300, .setTarget 0 1500] ++
    .replicate 3 .overflow ++ [.setTarget 1 2000] ++ .replicate 9 .overflow

def pulses (p : Timer1) : List (ℕ × ℕ) := p.periods.map fun q => (q.widths 0, q.widths 5)

theorem servo_pulses_twoServos : ∃ p : Timer1,
    p.pulses = .replicate 4 (0, 0) ++ [(0, 1000)] ++ .replicate 3 (0, 0) ++
      [(2000, 0), (0, 0), (0, 0), (0, 1300)] ∧
    p.pins = [(true, 0), (false, 2)] ∧
    (∀ q, p.periods[11]? = some q →
      ∃ r, p.periods[10]? = some r ∧ q.widths 5 = pulse (r.positions 5)) ∧
    p.servos.latch (true, 0) = false ∧ p.servos.selected (false, 5) = true := by
  have hrun : (exec step (fun _ _ => True) (powerUp ⟨0xFF, 0xFF, 0, 0, 0x3C, 0⟩) twoServos).map
      (fun p => (p.pulses, p.pins, p.ever)) =
      some (.replicate 4 (0, 0) ++ [(0, 1000)] ++ .replicate 3 (0, 0) ++
        [(2000, 0), (0, 0), (0, 0), (0, 1300)], [(true, 0), (false, 2)],
        [(true, 0), (false, 2)]) := by decide +kernel
  obtain ⟨p, hr, hp⟩ := exists_run_of_exec hrun
  obtain ⟨hpulses, hpins, hever⟩ : p.pulses = _ ∧ p.pins = _ ∧ p.ever = _ := by
    simpa only [Prod.mk.injEq] using hp
  obtain ⟨htrain, -, hlow, hout⟩ := servo_pulses hr
  refine ⟨p, hpulses, hpins, fun q hq => (htrain 11 q hq 5 ?_).1 rfl, (hlow (true, 0) ?_).1,
    (hout (false, 5) ?_).2.2.trans (by decide)⟩
  · rw [hpins]
    decide
  · rw [hever]
    decide
  · rw [hever]
    decide

/-- The servos keep their positions when they are stopped and started, and the first interrupt does
not wait for an overflow. -/
example : (exec step (fun _ _ => True) (powerUp ⟨0xFF, 0xFF, 0, 0, 0, 0⟩) (twoServos ++
    [.stop, .start none] ++ .replicate 4 .overflow)).map pulses =
    some [(0, 0), (2000, 0), (0, 0), (0, 0), (0, 1300)] := by
  decide +kernel

end Timer1

end WixelSdk.Servo
