import WixelSdk.I2cPulse

/-!
# The traffic of the I2C master

A slave that obeys the rules of the bus sees what the master means: each function of the library
leaves the lines as the next one needs them. A bit takes one pulse of SCL, and a condition is made
within one.
-/

namespace WixelSdk.I2c
open TwoWire

/-! ### The trace grows -/

namespace Master

def Extends (s t : Master) : Prop := s.bus.trace <+: t.bus.trace

namespace Extends

variable {s t u : Master}

theorem refl (s : Master) : Extends s s := List.prefix_refl _

theorem trans (h : Extends s t) (h' : Extends t u) : Extends s u := List.IsPrefix.trans h h'

theorem obeys {c : Watch} (h : Extends s t) (ho : c.Obeys t.bus) : c.Obeys s.bus := ho.of_prefix h

theorem of_drive {f : Wires → Wires} : s.bus.trace <+: (s.bus.turn.drive f).trace :=
  ((Watch.trace_kept s.bus).turn (List.prefix_refl _)).trans (List.prefix_append _ _)

theorem i2cReadSda (s : Master) : Extends s s.i2cReadSda := of_drive

theorem i2cClearSda (s : Master) : Extends s s.i2cClearSda := of_drive

theorem i2cClearScl (s : Master) : Extends s s.i2cClearScl := of_drive

theorem wait (s : Master) : Extends s s.i2cWaitForHighScl := by
  rw [Extends, i2cWaitForHighScl_bus]
  exact (Watch.trace_kept s.bus).waitForHighScl (fun h => h.trans (List.prefix_append _ _))
    (fun _ h => h.trans (List.prefix_append _ _)) (List.prefix_refl _)

/-- What follows a wait is left out after a timeout. -/
theorem ite (h : Extends s t) (hu : Extends t u) :
    Extends s (if t.internalTimeoutOccurred then t else u) := by
  split_ifs
  · exact h
  · exact h.trans hu

theorem setSda (s : Master) (b : Bool) :
    Extends s (if b then s.i2cReadSda else s.i2cClearSda) := by
  cases b
  · exact i2cClearSda s
  · exact i2cReadSda s

theorem i2cStop (s : Master) : Extends s s.i2cStop :=
  ((i2cClearSda s).trans (wait _)).ite (i2cReadSda _)

theorem i2cStart (s : Master) : Extends s s.i2cStart := by
  have hsda : Extends s (if s.started then s.i2cReadSda else s) := by
    split_ifs
    · exact i2cReadSda s
    · exact refl s
  exact (hsda.trans (wait _)).ite ((i2cClearSda _).trans (i2cClearScl _))

theorem i2cWriteBit (s : Master) (b : Bool) : Extends s (s.i2cWriteBit b) :=
  ((setSda s b).trans (wait _)).ite (i2cClearScl _)

theorem i2cReadBit (s : Master) : Extends s s.i2cReadBit.2 := by
  have hwait := (i2cReadSda s).trans (wait _)
  rw [Master.i2cReadBit]
  split_ifs
  · exact hwait
  · exact hwait.trans ((i2cReadSda _).trans (i2cClearScl _))

theorem writeBits (n : ℕ) (byte : UInt8) (s : Master) : Extends s (Master.writeBits n byte s) := by
  induction n generalizing byte s with
  | zero => exact refl s
  | succ n ih => exact (i2cWriteBit s _).ite (ih _ _)

theorem readBits (n : ℕ) (byte : UInt16) (s : Master) :
    Extends s (Master.readBits n byte s).2 := by
  induction n generalizing byte s with
  | zero => exact refl s
  | succ n ih =>
    rw [Master.readBits]
    by_cases hi : s.i2cReadBit.2.internalTimeoutOccurred
    · rw [if_pos hi]
      exact i2cReadBit s
    · rw [if_neg hi]
      exact (i2cReadBit s).trans (ih _ _)

/-- After the eight bits, and without a timeout, comes the acknowledge bit. -/
theorem writeBits_i2cWriteByte (s : Master) (byte : UInt8) :
    Extends (Master.writeBits 8 byte { s with internalTimeoutOccurred := false })
      (s.i2cWriteByte byte).2 := by
  rw [Master.i2cWriteByte]
  dsimp only
  split_ifs
  · exact refl _
  · exact i2cReadBit _
  · exact (i2cReadBit _).trans (i2cStop _)
  · exact i2cReadBit _

theorem readBits_i2cReadByte (s : Master) (nack : Bool) :
    Extends (Master.readBits 8 0 { s with internalTimeoutOccurred := false }).2
      (s.i2cReadByte nack).2 := by
  rw [Master.i2cReadByte]
  split_ifs
  · exact refl _
  · exact i2cWriteBit _ nack

theorem i2cWriteByte (s : Master) (byte : UInt8) : Extends s (s.i2cWriteByte byte).2 :=
  (writeBits 8 byte { s with internalTimeoutOccurred := false }).trans
    (writeBits_i2cWriteByte s byte)

theorem i2cReadByte (s : Master) (nack : Bool) : Extends s (s.i2cReadByte nack).2 :=
  (readBits 8 0 { s with internalTimeoutOccurred := false }).trans (readBits_i2cReadByte s nack)

end Extends

/-! ### Bits -/

structure Flags (c : Watch) (s : Master) : Prop where
  timeout : s.timeout = c.timeout
  started : s.started = true
  i2cTimeout : s.i2cTimeoutOccurred = false
  internal : s.internalTimeoutOccurred = false

structure Running (c : Watch) (s : Master) (r : Record) : Prop where
  low : c.Low s.bus r
  flags : Flags c s

namespace Running

variable {c : Watch} {s : Master} {r : Record} {master : Bool}

theorem i2cReadSda (h : Running c s r) : Running c s.i2cReadSda r :=
  ⟨h.low.i2cReadSda, h.flags.timeout, h.flags.started, h.flags.i2cTimeout, h.flags.internal⟩

theorem i2cClearSda (h : Running c s r) : Running c s.i2cClearSda r :=
  ⟨h.low.i2cClearSda, h.flags.timeout, h.flags.started, h.flags.i2cTimeout, h.flags.internal⟩

theorem wait (h : Running c s r) (hm : s.bus.wires.masterSda = master)
    (ho : c.Obeys s.i2cWaitForHighScl.bus) :
    ∃ slave, c.Risen s.i2cWaitForHighScl.bus r master slave ∧ Flags c s.i2cWaitForHighScl := by
  rw [i2cWaitForHighScl_bus, h.flags.timeout] at ho
  obtain ⟨hhigh, slave, hrisen⟩ :=
    h.low.waitForHighScl ((Watch.turn_masterSda _).trans hm) ho
  rw [← h.flags.timeout] at hhigh hrisen
  rw [i2cWaitForHighScl_of_high hhigh]
  exact ⟨slave, hrisen, h.flags.timeout, h.flags.started, h.flags.i2cTimeout, h.flags.internal⟩

theorem i2cWriteBit (h : Running c s r) (b : Bool) (ho : c.Obeys (s.i2cWriteBit b).bus) :
    ∃ slave, r.slot.permits slave = true ∧
      Running c (s.i2cWriteBit b) (r.rise.add [.bit (b && !slave) (!slave)]) := by
  have hset : Running c (if b then s.i2cReadSda else s.i2cClearSda) r ∧
      (if b then s.i2cReadSda else s.i2cClearSda).bus.wires.masterSda = !b := by
    cases b
    · exact ⟨h.i2cClearSda, rfl⟩
    · exact ⟨h.i2cReadSda, rfl⟩
  have hext := (Extends.refl (if b then s.i2cReadSda else s.i2cClearSda).i2cWaitForHighScl).ite
    (Extends.i2cClearScl _)
  obtain ⟨slave, hrisen, hflags⟩ := hset.1.wait hset.2 (hext.obeys ho)
  have hinternal := Bool.eq_false_iff.mp hflags.internal
  rw [Master.i2cWriteBit, if_neg hinternal] at ho ⊢
  have hlow := hrisen.high.i2cClearScl ho
  rw [Bool.not_or, Bool.not_not] at hlow
  exact ⟨slave, hrisen.permits, hlow, hflags.timeout, hflags.started, hflags.i2cTimeout,
    hflags.internal⟩

theorem i2cReadBit (h : Running c s r) (ho : c.Obeys s.i2cReadBit.2.bus) :
    ∃ slave, r.slot.permits slave = true ∧ s.i2cReadBit.1 = !slave ∧
      Running c s.i2cReadBit.2 (r.rise.add [.bit (!slave) (!slave)]) := by
  have hext : Extends s.i2cReadSda.i2cWaitForHighScl s.i2cReadBit.2 := by
    rw [Master.i2cReadBit]
    split_ifs
    · exact .refl _
    · exact (Extends.i2cReadSda _).trans (Extends.i2cClearScl _)
  obtain ⟨slave, hrisen, hflags⟩ := h.i2cReadSda.wait rfl (hext.obeys ho)
  have hinternal := Bool.eq_false_iff.mp hflags.internal
  rw [Master.i2cReadBit, if_neg hinternal] at ho ⊢
  obtain ⟨hlevel, hread⟩ := hrisen.high.i2cReadSda ((Extends.i2cClearScl _).obeys ho)
  exact ⟨slave, hrisen.permits, hlevel, hread.i2cClearScl ho, hflags.timeout, hflags.started,
    hflags.i2cTimeout, hflags.internal⟩

/-! ### Bytes -/

end Running

def topBits : ℕ → UInt8 → List Bool
  | 0, _ => []
  | n + 1, byte => (byte &&& 0x80 != 0) :: topBits n (byte <<< 1)

/-- The value that the loop of `i2cReadByte` makes of the bits that it reads. -/
def joinBits (byte : UInt16) (vs : List Bool) : UInt16 :=
  vs.foldl (fun byte v => byte <<< 1 ||| if v then 1 else 0) byte

/-- The bits of a byte, most significant first. -/
def bits (byte : UInt8) : List Bool := (List.range 8).map fun i => byte.toNat.testBit (7 - i)

theorem topBits_eight (byte : UInt8) : topBits 8 byte = bits byte := by
  have hall : ∀ n < 256, topBits 8 (.ofNat n) = bits (.ofNat n) := by decide +kernel
  have hbyte := hall byte.toNat byte.toNat_lt
  rwa [UInt8.ofNat_toNat] at hbyte

theorem bits_joinBits {vs : List Bool} (h : vs.length = 8) : bits (joinBits 0 vs).toUInt8 = vs := by
  have hall : ∀ b₀ b₁ b₂ b₃ b₄ b₅ b₆ b₇ : Bool,
      bits (joinBits 0 [b₀, b₁, b₂, b₃, b₄, b₅, b₆, b₇]).toUInt8 =
        [b₀, b₁, b₂, b₃, b₄, b₅, b₆, b₇] := by decide +kernel
  match vs, h with
  | [b₀, b₁, b₂, b₃, b₄, b₅, b₆, b₇], _ => exact hall b₀ b₁ b₂ b₃ b₄ b₅ b₆ b₇

namespace Running

variable {c : Watch} {s : Master} {r : Record} {sy ch : List Symbol} {sl : List Slot}

theorem clearInternal (h : Running c s r) :
    Running c { s with internalTimeoutOccurred := false } r :=
  ⟨h.low, h.flags.timeout, h.flags.started, h.flags.i2cTimeout, rfl⟩

/-- While the slave must leave SDA alone, the master writes its bits. -/
theorem writeBits {n : ℕ} {byte : UInt8}
    (h : Running c s ⟨sy, ch, List.replicate n .released ++ sl⟩)
    (ho : c.Obeys (Master.writeBits n byte s).bus) :
    Running c (Master.writeBits n byte s)
      ⟨sy ++ (topBits n byte).map (.bit · true), ch, sl⟩ := by
  induction n generalizing s byte sy with
  | zero =>
    rw [topBits, List.map_nil, List.append_nil]
    exact h
  | succ n ih =>
    have hext := (Extends.refl (s.i2cWriteBit (byte &&& 0x80 != 0))).ite
      (Extends.writeBits n (byte <<< 1) _)
    obtain ⟨slave, hpermits, hbit⟩ := h.i2cWriteBit _ (hext.obeys ho)
    have hslave : slave = false := by
      rw [← Bool.not_eq_true']
      exact hpermits
    rw [hslave, Bool.not_false, Bool.and_true] at hbit
    rw [Master.writeBits, if_neg (Bool.eq_false_iff.mp hbit.flags.internal)] at ho ⊢
    have hrest := ih hbit ho
    rwa [topBits, List.map_cons, ← List.singleton_append, ← List.append_assoc]

/-- While the slave may drive SDA, the master reads its bits. -/
theorem readBits {n : ℕ} {byte : UInt16}
    (h : Running c s ⟨sy, ch, List.replicate n .data ++ sl⟩)
    (ho : c.Obeys (Master.readBits n byte s).2.bus) :
    ∃ vs : List Bool, vs.length = n ∧ (Master.readBits n byte s).1 = joinBits byte vs ∧
      Running c (Master.readBits n byte s).2 ⟨sy ++ vs.map fun v => .bit v v, ch, sl⟩ := by
  induction n generalizing s byte sy with
  | zero =>
    refine ⟨[], rfl, rfl, ?_⟩
    rw [List.map_nil, List.append_nil]
    exact h
  | succ n ih =>
    have hext : Extends s.i2cReadBit.2 (Master.readBits (n + 1) byte s).2 := by
      rw [Master.readBits]
      by_cases hi : s.i2cReadBit.2.internalTimeoutOccurred
      · rw [if_pos hi]
        exact .refl _
      · rw [if_neg hi]
        exact .readBits _ _ _
    obtain ⟨slave, -, hlevel, hbit⟩ := h.i2cReadBit (hext.obeys ho)
    rw [Master.readBits, if_neg (Bool.eq_false_iff.mp hbit.flags.internal)] at ho ⊢
    obtain ⟨vs, hlen, hval, hrest⟩ := ih hbit ho
    refine ⟨(!slave) :: vs, congrArg (· + 1) hlen, ?_, ?_⟩
    · rw [hval, hlevel]
      rfl
    · rwa [List.map_cons, ← List.singleton_append, ← List.append_assoc]

/-- A byte that is acknowledged. -/
theorem i2cWriteByte {byte : UInt8}
    (h : Running c s ⟨sy, ch, List.replicate 8 .released ++ .ack :: sl⟩)
    (ho : c.Obeys (s.i2cWriteByte byte).2.bus) :
    (s.i2cWriteByte byte).1 = false ∧
      Running c (s.i2cWriteByte byte).2
        ⟨sy ++ ((bits byte).map (.bit · true) ++ [.bit false false]), ch, sl⟩ := by
  have hbits := h.clearInternal.writeBits ((Extends.writeBits_i2cWriteByte s byte).obeys ho)
  rw [topBits_eight] at hbits
  rw [Master.i2cWriteByte, if_neg (Bool.eq_false_iff.mp hbits.flags.internal)] at ho ⊢
  dsimp only at ho ⊢
  have hext : c.Obeys (Master.writeBits 8 byte
      { s with internalTimeoutOccurred := false }).i2cReadBit.2.bus := by
    split_ifs at ho
    · exact ho
    · exact (Extends.i2cStop _).obeys ho
    · exact ho
  obtain ⟨slave, hpermits, hlevel, hack⟩ := hbits.i2cReadBit hext
  have hslave : slave = true := hpermits
  rw [hslave] at hlevel hack
  rw [if_neg (Bool.eq_false_iff.mp hack.flags.internal), if_neg (Bool.eq_false_iff.mp hlevel)]
  rw [← List.append_assoc]
  exact ⟨hlevel, hack⟩

/-- A byte that the slave drives, and the master's answer. -/
theorem i2cReadByte {nack : Bool}
    (h : Running c s ⟨sy, ch, List.replicate 8 .data ++ .released :: sl⟩)
    (ho : c.Obeys (s.i2cReadByte nack).2.bus) :
    Running c (s.i2cReadByte nack).2
      ⟨sy ++ ((bits (s.i2cReadByte nack).1).map (fun v => .bit v v) ++ [.bit nack true]), ch,
        sl⟩ := by
  obtain ⟨vs, hlen, hval, hbits⟩ :=
    h.clearInternal.readBits ((Extends.readBits_i2cReadByte s nack).obeys ho)
  rw [Master.i2cReadByte, if_neg (Bool.eq_false_iff.mp hbits.flags.internal)] at ho ⊢
  obtain ⟨slave, hpermits, hlast⟩ := hbits.i2cWriteBit nack ho
  have hslave : slave = false := by
    rw [← Bool.not_eq_true']
    exact hpermits
  rw [hslave, Bool.not_false, Bool.and_true] at hlast
  dsimp only
  rw [if_neg (Bool.eq_false_iff.mp hlast.flags.internal), hval, bits_joinBits hlen,
    ← List.append_assoc]
  exact hlast

/-! ### Conditions -/

theorem i2cStart (h : Running c s ⟨sy, ch, .released :: sl⟩) (ho : c.Obeys s.i2cStart.bus) :
    Running c s.i2cStart ⟨sy ++ [.start], ch ++ [.start], sl⟩ := by
  have hext : Extends s.i2cReadSda.i2cWaitForHighScl s.i2cStart := by
    rw [Master.i2cStart, if_pos h.flags.started]
    exact (Extends.refl _).ite ((Extends.i2cClearSda _).trans (Extends.i2cClearScl _))
  obtain ⟨slave, hrisen, hflags⟩ := h.i2cReadSda.wait rfl (hext.obeys ho)
  have hslave : slave = false := by
    rw [← Bool.not_eq_true']
    exact hrisen.permits
  rw [hslave] at hrisen
  rw [Master.i2cStart, if_pos h.flags.started, if_neg (Bool.eq_false_iff.mp hflags.internal)]
    at ho ⊢
  have hstart := hrisen.high.start ((Extends.i2cClearScl _).obeys ho)
  have hlow : c.Low _ (Record.add _ []) := hstart.i2cClearScl ho
  rw [Record.add_nil] at hlow
  exact ⟨hlow, hflags.timeout, rfl, hflags.i2cTimeout, hflags.internal⟩

end Running

structure Stopped (c : Watch) (s : Master) (r : Record) : Prop where
  high : c.High s.bus r false false none
  started : s.started = false
  i2cTimeout : s.i2cTimeoutOccurred = false
  internal : s.internalTimeoutOccurred = false

namespace Running

variable {c : Watch} {s : Master} {sy ch : List Symbol} {sl : List Slot}

theorem i2cStop (h : Running c s ⟨sy, ch, .released :: sl⟩) (ho : c.Obeys s.i2cStop.bus) :
    Stopped c s.i2cStop ⟨sy ++ [.stop], ch ++ [.stop], sl⟩ := by
  have hext : Extends s.i2cClearSda.i2cWaitForHighScl s.i2cStop :=
    (Extends.refl _).ite (Extends.i2cReadSda _)
  obtain ⟨slave, hrisen, hflags⟩ := h.i2cClearSda.wait rfl (hext.obeys ho)
  have hslave : slave = false := by
    rw [← Bool.not_eq_true']
    exact hrisen.permits
  rw [hslave] at hrisen
  rw [Master.i2cStop, if_neg (Bool.eq_false_iff.mp hflags.internal)] at ho ⊢
  exact ⟨hrisen.high.stop ho, rfl, hflags.i2cTimeout, hflags.internal⟩

end Running

structure Released (s : Master) : Prop where
  wires : s.bus.wires = .released s.bus.wires.ms
  trace : s.bus.trace = []
  started : s.started = false
  i2cTimeout : s.i2cTimeoutOccurred = false
  internal : s.internalTimeoutOccurred = false

namespace Released

variable {s : Master} {sl : List Slot}

theorem high (h : s.Released) :
    Watch.High ⟨s.timeout, sl, s.bus.wires⟩ s.bus ⟨[], [], sl⟩ false false none := by
  have hw := h.wires
  refine ⟨?_, ?_, ?_, ?_, ?_, ?_⟩
  · rw [hw]; rfl
  · rw [hw]; rfl
  · rw [hw]; rfl
  · rw [hw]; rfl
  · rw [Watch.decoder, h.trace]; rfl
  · rw [Watch.observer, h.trace]; rfl

theorem i2cStart (h : s.Released)
    (ho : Watch.Obeys ⟨s.timeout, sl, s.bus.wires⟩ s.i2cStart.bus) :
    Running ⟨s.timeout, sl, s.bus.wires⟩ s.i2cStart ⟨[.start], [.start], sl⟩ := by
  have hs : ¬s.started = true := Bool.eq_false_iff.mp h.started
  have hext : Extends s.i2cWaitForHighScl s.i2cStart := by
    rw [Master.i2cStart, if_neg hs]
    exact (Extends.refl _).ite ((Extends.i2cClearSda _).trans (Extends.i2cClearScl _))
  have hwait := hext.obeys ho
  rw [i2cWaitForHighScl_bus] at hwait
  obtain ⟨htrue, hhigh⟩ := h.high.waitForHighScl hwait
  have heq := i2cWaitForHighScl_of_high htrue
  have hinternal : ¬s.i2cWaitForHighScl.internalTimeoutOccurred = true := by
    rw [heq]
    exact Bool.eq_false_iff.mp h.internal
  rw [Master.i2cStart, if_neg hs, if_neg hinternal, heq] at ho ⊢
  have hstart := hhigh.start ((Extends.i2cClearScl _).obeys ho)
  have hlow : Watch.Low _ _ (Record.add _ []) := hstart.i2cClearScl ho
  rw [Record.add_nil] at hlow
  exact ⟨hlow, rfl, rfl, h.i2cTimeout, h.internal⟩

end Released
end Master

/-! ### Programs -/

inductive Command
  | i2cStart
  | i2cWriteByte (byte : UInt8)
  | i2cReadByte (nack : Bool)
  deriving DecidableEq

namespace Command

def run : Command → Master → UInt8 × Master
  | i2cStart, s => (0, s.i2cStart)
  | i2cWriteByte byte, s => ((s.i2cWriteByte byte).1.toUInt8, (s.i2cWriteByte byte).2)
  | i2cReadByte nack, s => s.i2cReadByte nack

/-- The traffic of a call that returned this value. -/
def symbols : Command → UInt8 → List Symbol
  | i2cStart, _ => [.start]
  | i2cWriteByte byte, _ => (Master.bits byte).map (.bit · true) ++ [.bit false false]
  | i2cReadByte nack, value => (Master.bits value).map (fun v => .bit v v) ++ [.bit nack true]

def isRead : Command → Bool
  | i2cReadByte _ => true
  | _ => false

/-- The slave drives SDA on after a byte that the master acknowledged. -/
def acknowledges : Command → Bool
  | i2cReadByte nack => !nack
  | _ => false

/-- A read that no other read follows is not acknowledged. -/
def WellFormed : List Command → Prop
  | [] => True
  | a :: as => (a.acknowledges = true → ∃ a' as', as = a' :: as' ∧ a'.isRead = true) ∧ WellFormed as

/-- What the slave may do in a pulse in which the master drives SDA. -/
def quiet (acknowledged : Bool) : Slot := if acknowledged then .data else .released

def slots : Bool → List Command → List Slot
  | acknowledged, [] => [quiet acknowledged]
  | acknowledged, i2cStart :: as => quiet acknowledged :: slots false as
  | acknowledged, i2cWriteByte _ :: as =>
      List.replicate 8 (quiet acknowledged) ++ .ack :: slots false as
  | _, i2cReadByte nack :: as => List.replicate 8 .data ++ .released :: slots (!nack) as

end Command

namespace Master

def runAll : List Command → Master → List UInt8 × Master
  | [], s => ([], s)
  | a :: as, s => ((a.run s).1 :: (runAll as (a.run s).2).1, (runAll as (a.run s).2).2)

/-- What the calls between the first START and the STOP return, and the state after the STOP. -/
def program (as : List Command) (s : Master) : List UInt8 × Master :=
  ((runAll as s.i2cStart).1, (runAll as s.i2cStart).2.i2cStop)

theorem Extends.run (a : Command) (s : Master) : Extends s (a.run s).2 := by
  cases a with
  | i2cStart => exact i2cStart s
  | i2cWriteByte byte => exact i2cWriteByte s byte
  | i2cReadByte nack => exact i2cReadByte s nack

theorem Extends.runAll (as : List Command) (s : Master) : Extends s (Master.runAll as s).2 := by
  induction as generalizing s with
  | nil => exact refl s
  | cons a as ih => exact (run a s).trans (ih _)

theorem length_runAll (as : List Command) (s : Master) : (runAll as s).1.length = as.length := by
  induction as generalizing s with
  | nil => rfl
  | cons a as ih => exact congrArg (· + 1) (ih _)

theorem filter_bits (vs : List Bool) (f : Bool → Symbol) (x : Symbol)
    (hf : ∀ v, (f v).isCondition = false) (hx : x.isCondition = false) :
    (vs.map f ++ [x]).filter Symbol.isCondition = [] := by
  rw [List.filter_eq_nil_iff]
  intro y hy
  rcases List.mem_append.mp hy with hm | hm
  · obtain ⟨v, -, rfl⟩ := List.mem_map.mp hm
    rw [hf]
    decide
  · rw [List.mem_singleton.mp hm, hx]
    decide

namespace Running

variable {c : Watch} {s : Master} {sy ch : List Symbol}

/-- The traffic of one call. -/
theorem run {acknowledged : Bool} {a : Command} {as : List Command}
    (h : Running c s ⟨sy, ch, Command.slots acknowledged (a :: as)⟩)
    (ha : acknowledged = true → a.isRead = true) (ho : c.Obeys (a.run s).2.bus) :
    Running c (a.run s).2 ⟨sy ++ a.symbols (a.run s).1,
      ch ++ (a.symbols (a.run s).1).filter Symbol.isCondition,
      Command.slots a.acknowledges as⟩ := by
  cases a with
  | i2cStart =>
    cases acknowledged
    · exact h.i2cStart ho
    · cases ha rfl
  | i2cWriteByte byte =>
    cases acknowledged
    · have hbyte := (h.i2cWriteByte ho).2
      rw [Command.symbols, filter_bits _ _ _ (fun _ => rfl) rfl, List.append_nil]
      exact hbyte
    · cases ha rfl
  | i2cReadByte nack =>
    have hbyte := h.i2cReadByte ho
    rw [Command.symbols, filter_bits _ _ _ (fun _ => rfl) rfl, List.append_nil]
    exact hbyte

/-- The traffic of the calls between the first START and the STOP. -/
theorem runAll {acknowledged : Bool} {as : List Command}
    (h : Running c s ⟨sy, ch, Command.slots acknowledged as⟩) (hwf : Command.WellFormed as)
    (ha : acknowledged = true → ∃ a as', as = a :: as' ∧ a.isRead = true)
    (ho : c.Obeys (Master.runAll as s).2.bus) :
    Running c (Master.runAll as s).2
      ⟨sy ++ (List.zipWith Command.symbols as (Master.runAll as s).1).flatten,
        ch ++ ((List.zipWith Command.symbols as (Master.runAll as s).1).flatten).filter
          Symbol.isCondition, [.released]⟩ := by
  induction as generalizing s sy ch acknowledged with
  | nil =>
    cases acknowledged
    · simpa [Master.runAll, Command.slots, Command.quiet] using h
    · obtain ⟨a, as', hnil, -⟩ := ha rfl
      cases hnil
  | cons a as ih =>
    have hread : acknowledged = true → a.isRead = true := by
      intro hack
      obtain ⟨a', as', hcons, hread⟩ := ha hack
      cases hcons
      exact hread
    have hfirst := h.run hread ((Extends.runAll as _).obeys ho)
    have hrest := ih hfirst hwf.2 hwf.1 ho
    simpa only [Master.runAll, List.zipWith_cons_cons, List.flatten_cons, List.filter_append,
      List.append_assoc] using hrest

end Running
end Master

/-- With a slave that obeys the rules of the bus, the traffic of a program is a START, what its
calls mean, and a STOP. The second part of a bit is the level that the slave gave to SDA. -/
theorem program_traffic {s : Master} (hs : s.Released) {as : List Command}
    (hwf : Command.WellFormed as)
    (ho : (observe s.timeout (Command.slots false as) s.bus.wires
      (s.program as).2.bus.trace).obeyed = true) :
    let d := decode s.bus.wires (s.program as).2.bus.trace
    (s.program as).1.length = as.length ∧
      d.symbols = .start :: (List.zipWith Command.symbols as (s.program as).1).flatten ++ [.stop] ∧
      d.changes = d.symbols.filter Symbol.isCondition ∧
      (s.program as).2.i2cTimeoutOccurred = false ∧ (s.program as).2.started = false := by
  have hrun := (Master.Extends.i2cStop _).obeys
    (c := ⟨s.timeout, Command.slots false as, s.bus.wires⟩) ho
  have hstart := hs.i2cStart ((Master.Extends.runAll as _).obeys hrun)
  have hcalls := hstart.runAll hwf (fun hf => by cases hf) hrun
  have hstop := hcalls.i2cStop ho
  have hsymbols := congrArg Decoder.symbols hstop.high.decoder
  have hchanges := congrArg Decoder.changes hstop.high.decoder
  have hfilter : ∀ sy, [Symbol.start] ++ sy.filter Symbol.isCondition ++ [Symbol.stop] =
      ([Symbol.start] ++ sy ++ [Symbol.stop]).filter Symbol.isCondition := by
    intro sy
    rw [List.filter_append, List.filter_append]
    rfl
  exact ⟨Master.length_runAll _ _, hsymbols,
    hchanges.trans ((hfilter _).trans (congrArg (List.filter _) hsymbols).symm),
    hstop.i2cTimeout, hstop.started⟩

/-- The slave stretches the clock for 8 ms when it acknowledges the first byte, then drives two
bytes, and acknowledges another one after a repeated START. -/
theorem program_traffic_read :
    let idle (n : ℕ) : List Turn := List.replicate n []
    let reply (byte : UInt8) : List Turn :=
      (Master.bits byte).flatMap fun v => [⟨0, false, !v⟩] :: idle 3
    let turns := idle 27 ++
      [[⟨0, true, true⟩], [], [⟨5, true, true⟩], [⟨3, false, true⟩], [], []] ++ reply 0x5A ++
      [⟨0, false, false⟩] :: idle 2 ++ reply 0xC3 ++ [⟨0, false, false⟩] :: idle 2 ++ idle 28 ++
      [[⟨0, false, true⟩], [], [], [], [⟨0, false, false⟩]]
    let s : Master := ⟨⟨.released 0, [], turns⟩, 10, false, false, false⟩
    let as := [Command.i2cWriteByte 0xA1, .i2cReadByte false, .i2cReadByte true, .i2cStart,
      .i2cWriteByte 0xA0]
    (s.program as).1 = [0, 0x5A, 0xC3, 0, 0] ∧
      (decode s.bus.wires (s.program as).2.bus.trace).changes = [.start, .start, .stop] := by
  intro idle reply turns s as
  have hwf : Command.WellFormed as :=
    ⟨fun h => (by cases h), fun _ => ⟨_, _, rfl, rfl⟩, fun h => (by cases h), fun h => (by cases h),
      fun h => (by cases h), trivial⟩
  obtain ⟨-, -, hchanges, -⟩ := @program_traffic s ⟨rfl, rfl, rfl, rfl, rfl⟩ as hwf
    (by decide +kernel)
  exact ⟨by decide +kernel, hchanges.trans (by decide +kernel)⟩

end WixelSdk.I2c
