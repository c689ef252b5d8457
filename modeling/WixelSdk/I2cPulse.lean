import WixelSdk.I2c

/-!
# The pulses of the I2C bus

What an access to the pins does to the trace of the bus when the slave obeys its rules. Between two
functions of the library the master holds SCL low (`Low`). It lets go of SCL, the slave may stretch
the pause (`Stretched`), and SCL rises (`Risen`); while it is high (`High`) the slave leaves its
lines alone.
-/

namespace WixelSdk.I2c
open TwoWire

structure Watch where
  timeout : ℕ
  slots : List Slot
  wires : Wires

structure Record where
  symbols : List Symbol
  changes : List Symbol
  slots : List Slot

namespace Record

variable (r : Record)

def slot : Slot := r.slots.headD .released

def rise : Record := { r with slots := r.slots.tail }

def add (s : List Symbol) : Record := { r with symbols := r.symbols ++ s }

@[simp] theorem add_nil : r.add [] = r := by
  rw [add, List.append_nil]

def condition (s : Symbol) : Record :=
  { r with symbols := r.symbols ++ [s], changes := r.changes ++ [s] }

end Record

namespace Watch

variable (c : Watch) (b : Bus) (r : Record)

def decoder : Decoder := decode c.wires b.trace

def observer : Observer := observe c.timeout c.slots c.wires b.trace

def Obeys : Prop := (c.observer b).obeyed = true

structure Low : Prop where
  masterScl : b.wires.masterScl = true
  decoder : c.decoder b = ⟨b.wires, none, r.symbols, r.changes⟩
  observer : c.observer b = ⟨b.wires, r.slots, none, true⟩

structure High (master slave : Bool) (bit : Option (Bool × Bool)) : Prop where
  masterScl : b.wires.masterScl = false
  slaveScl : b.wires.slaveScl = false
  masterSda : b.wires.masterSda = master
  slaveSda : b.wires.slaveSda = slave
  decoder : c.decoder b = ⟨b.wires, bit, r.symbols, r.changes⟩
  observer : c.observer b = ⟨b.wires, r.slots, none, true⟩

/-- The slave holds SCL low, which the master let go of at `time`. -/
structure Stretched (master : Bool) (time : ℕ) : Prop where
  masterScl : b.wires.masterScl = false
  slaveScl : b.wires.slaveScl = true
  masterSda : b.wires.masterSda = master
  decoder : c.decoder b = ⟨b.wires, none, r.symbols, r.changes⟩
  observer : c.observer b = ⟨b.wires, r.slots, some time, true⟩
  le_ms : time ≤ b.wires.ms
  brief : b.wires.ms - time ≤ c.timeout

/-- The pulse has begun with what the slot permits. -/
structure Risen (master slave : Bool) : Prop where
  permits : r.slot.permits slave = true
  high : c.High b r.rise master slave (some (!(master || slave), !slave))

def Rising (master : Bool) (time : ℕ) : Prop :=
  c.Stretched b r master time ∨ ∃ slave, c.Risen b r master slave

variable {c b r} {master slave : Bool} {bit : Option (Bool × Bool)} {time : ℕ}

/-! ### Steps of the bus -/

theorem decoder_drive (f : Wires → Wires) :
    c.decoder (b.drive f) = (c.decoder b).next (f b.wires) := decode_concat _ _ _

theorem observer_drive (f : Wires → Wires) :
    c.observer (b.drive f) = (c.observer b).next c.timeout (f b.wires) := observe_concat _

theorem trace_kept (b : Bus) : Bus.Kept fun b' => b.trace <+: b'.trace where
  turns _ h := h
  slaveMove _ h := h.trans (List.prefix_append _ _)

theorem Obeys.of_prefix {b' : Bus} (ho : c.Obeys b') (h : b.trace <+: b'.trace) : c.Obeys b :=
  obeyed_of_prefix h ho

theorem Obeys.of_drive {f : Wires → Wires} (ho : c.Obeys (b.drive f)) : c.Obeys b :=
  ho.of_prefix (List.prefix_append _ _)

theorem Obeys.of_slaveTurn {t : Turn} (ho : c.Obeys (b.slaveTurn t)) : c.Obeys b :=
  ho.of_prefix ((trace_kept b).slaveTurn t (List.prefix_refl _))

/-- The first reading of SCL is a part of the loop. -/
theorem Obeys.of_pollScl {ms : ℕ} {ts : List Turn} (ho : c.Obeys (b.pollScl ms time ts).2) :
    c.Obeys b.i2cReadScl.2 := by
  apply ho.of_prefix
  have hkept := trace_kept b.i2cReadScl.2
  cases ts with
  | nil =>
    rw [Bus.pollScl]
    split_ifs
    · exact List.prefix_refl _
    · exact List.prefix_refl _
    · exact List.prefix_append _ _
  | cons t ts =>
    rw [Bus.pollScl]
    split_ifs
    · exact List.prefix_refl _
    · exact List.prefix_refl _
    · exact hkept.pollScl (fun h => h.trans (List.prefix_append _ _))
        (fun _ h => h.trans (List.prefix_append _ _)) ts (hkept.slaveTurn t (List.prefix_refl _))

theorem scl_low {w : Wires} (h : w.masterScl = true) : w.scl = false := by
  rw [Wires.scl, h, Bool.true_or]
  rfl

theorem scl_eq {w : Wires} (h : w.masterScl = false) : w.scl = !w.slaveScl := by
  rw [Wires.scl, h, Bool.false_or]

namespace Low

theorem drive (h : c.Low b r) (f : Wires → Wires) (hf : (f b.wires).masterScl = true) :
    c.Low (b.drive f) r where
  masterScl := hf
  decoder := by
    rw [decoder_drive, h.decoder, Decoder.next_low (scl_low h.masterScl) (scl_low hf)]
    rfl
  observer := by
    rw [observer_drive, h.observer, Observer.next_low (scl_low h.masterScl) hf]
    rfl

theorem kept (c : Watch) (r : Record) : Bus.Kept fun b => c.Low b r where
  turns _ h := ⟨h.masterScl, h.decoder, h.observer⟩
  slaveMove _ h := h.drive _ h.masterScl

theorem turn (h : c.Low b r) : c.Low b.turn r := (kept c r).turn h

theorem i2cReadSda (h : c.Low b r) : c.Low b.i2cReadSda.2 r :=
  h.turn.drive (fun w => { w with masterSda := false }) h.turn.masterScl

theorem i2cClearSda (h : c.Low b r) : c.Low b.i2cClearSda r := h.turn.drive _ h.turn.masterScl

end Low

namespace High

theorem scl (h : c.High b r master slave bit) : b.wires.scl = true := by
  rw [scl_eq h.masterScl, h.slaveScl]
  rfl

theorem sda (h : c.High b r master slave bit) : b.wires.sda = !(master || slave) := by
  rw [Wires.sda, h.masterSda, h.slaveSda]

/-- The lines stay as they are. -/
theorem drive_same (h : c.High b r master slave bit) (f : Wires → Wires)
    (hmscl : (f b.wires).masterScl = false) (hsscl : (f b.wires).slaveScl = false)
    (hmsda : (f b.wires).masterSda = master) (hssda : (f b.wires).slaveSda = slave) :
    c.High (b.drive f) r master slave bit := by
  have hscl : (f b.wires).scl = true := by rw [scl_eq hmscl, hsscl]; rfl
  have hsda : (f b.wires).sda = b.wires.sda := by rw [h.sda, Wires.sda, hmsda, hssda]
  refine ⟨hmscl, hsscl, hmsda, hssda, ?_, ?_⟩
  · rw [decoder_drive, h.decoder, Decoder.next_high h.scl hscl hsda (hmsda.trans h.masterSda.symm)]
    rfl
  · rw [observer_drive, h.observer,
      Observer.next_high h.scl hscl (hssda.trans h.slaveSda.symm)]
    rfl

theorem slaveMove (h : c.High b r master slave bit) {m : Move} (ho : c.Obeys (b.slaveMove m)) :
    c.High (b.slaveMove m) r master slave bit := by
  have hobeyed := ho
  rw [Obeys, Bus.slaveMove, observer_drive, h.observer] at hobeyed
  obtain ⟨hsda, hscl⟩ := Observer.stable_of_obeyed h.scl hobeyed
  exact h.drive_same _ h.masterScl hscl h.masterSda (hsda.trans h.slaveSda)

theorem slaveTurn (h : c.High b r master slave bit) {t : Turn} (ho : c.Obeys (b.slaveTurn t)) :
    c.High (b.slaveTurn t) r master slave bit := by
  induction t generalizing b with
  | nil => exact h
  | cons m t ih => exact ih (h.slaveMove (Obeys.of_slaveTurn (t := t) ho)) ho

theorem setTurns (h : c.High b r master slave bit) (ts : List Turn) :
    c.High { b with turns := ts } r master slave bit :=
  ⟨h.masterScl, h.slaveScl, h.masterSda, h.slaveSda, h.decoder, h.observer⟩

theorem turn (h : c.High b r master slave bit) (ho : c.Obeys b.turn) :
    c.High b.turn r master slave bit := by
  rw [Bus.turn] at ho ⊢
  split at ho
  · exact h
  · exact (h.setTurns _).slaveTurn ho

/-- SCL falls, which ends the pulse. -/
theorem i2cClearScl (h : c.High b r master slave bit) (ho : c.Obeys b.i2cClearScl) :
    c.Low b.i2cClearScl (r.add (bit.map fun x => .bit x.1 x.2).toList) := by
  have ht := h.turn (Obeys.of_drive ho)
  refine ⟨rfl, ?_, ?_⟩
  · rw [Bus.i2cClearScl, decoder_drive, ht.decoder, Decoder.next_fall ht.scl rfl]
    rfl
  · rw [Bus.i2cClearScl, observer_drive, ht.observer,
      Observer.next_fall (w := { b.turn.wires with masterScl := true }) ht.scl rfl rfl
        ht.slaveScl]
    rfl

theorem i2cReadSda (h : c.High b r false slave bit) (ho : c.Obeys b.i2cReadSda.2) :
    b.i2cReadSda.1 = !slave ∧ c.High b.i2cReadSda.2 r false slave bit := by
  have ht := h.turn (Obeys.of_drive ho)
  have hread := ht.drive_same (fun w => { w with masterSda := false }) ht.masterScl ht.slaveScl rfl
    ht.slaveSda
  exact ⟨hread.sda, hread⟩

/-- The master changes SDA, which the slave does not hold. -/
theorem drive_sda (h : c.High b r master false bit) :
    c.High (b.drive fun w => { w with masterSda := !master })
      (r.condition (.condition master)) (!master) false none := by
  have hsda : ({ b.wires with masterSda := !master } : Wires).sda = master := by
    rw [Wires.sda, h.slaveSda, Bool.or_false, Bool.not_not]
  have hne : ({ b.wires with masterSda := !master } : Wires).sda ≠ b.wires.sda := by
    rw [hsda, h.sda]
    cases master <;> decide
  have hmne : (!master) ≠ b.wires.masterSda := by
    rw [h.masterSda]
    cases master <;> decide
  refine ⟨h.masterScl, h.slaveScl, rfl, h.slaveSda, ?_, ?_⟩
  · rw [decoder_drive, h.decoder,
      Decoder.next_condition (w := { b.wires with masterSda := !master }) h.scl h.scl hne hmne
        (hsda.trans (Bool.not_not master).symm), hsda]
    rfl
  · rw [observer_drive, h.observer,
      Observer.next_high (w := { b.wires with masterSda := !master }) h.scl h.scl rfl]
    rfl

theorem start (h : c.High b r false false bit) (ho : c.Obeys b.i2cClearSda) :
    c.High b.i2cClearSda (r.condition .start) true false none :=
  (h.turn (Obeys.of_drive ho)).drive_sda

theorem stop (h : c.High b r true false bit) (ho : c.Obeys b.i2cReadSda.2) :
    c.High b.i2cReadSda.2 (r.condition .stop) false false none :=
  (h.turn (Obeys.of_drive ho)).drive_sda

end High

/-! ### Waiting for SCL -/

/-- SCL is low and the master lets go of it, or has done so before. -/
theorem rising_of_low {since : Option ℕ} {f : Wires → Wires} (hscl : b.wires.scl = false)
    (hd : c.decoder b = ⟨b.wires, none, r.symbols, r.changes⟩)
    (hw : c.observer b = ⟨b.wires, r.slots, since, true⟩)
    (hmscl : (f b.wires).masterScl = false) (hmsda : (f b.wires).masterSda = master)
    (hsince : since.getD (f b.wires).ms = time) (hle : time ≤ (f b.wires).ms)
    (ho : c.Obeys (b.drive f)) : c.Rising (b.drive f) r master time := by
  rw [Obeys, observer_drive, hw] at ho
  rcases hslave : (f b.wires).slaveScl with _ | _
  · have hrise : (f b.wires).scl = true := by rw [scl_eq hmscl, hslave]; rfl
    obtain ⟨hnext, hpermits⟩ := Observer.next_rise hscl hrise ho
    have hsda : (f b.wires).sda = !(master || (f b.wires).slaveSda) := by rw [Wires.sda, hmsda]
    refine .inr ⟨(f b.wires).slaveSda, hpermits, hmscl, hslave, hmsda, rfl, ?_, ?_⟩
    · rw [decoder_drive, hd, Decoder.next_rise hscl hrise, hsda]
      rfl
    · rw [observer_drive, hw, hnext]
      rfl
  · have hlow : (f b.wires).scl = false := by rw [scl_eq hmscl, hslave]; rfl
    obtain ⟨hnext, hbrief⟩ := Observer.next_stretch hscl hlow hmscl ho
    refine .inl ⟨hmscl, hslave, hmsda, ?_, ?_, hle, hsince ▸ hbrief⟩
    · rw [decoder_drive, hd, Decoder.next_low hscl hlow]
      rfl
    · rw [observer_drive, hw, hnext, ← hsince]
      rfl

theorem Low.i2cReadScl (h : c.Low b r) (hm : b.wires.masterSda = master)
    (ho : c.Obeys b.i2cReadScl.2) : c.Rising b.i2cReadScl.2 r master b.wires.ms :=
  rising_of_low (f := fun w => { w with masterScl := false }) (scl_low h.masterScl) h.decoder
    h.observer rfl hm rfl (Nat.le_refl _) ho

namespace Rising

theorem slaveMove {m : Move} (h : c.Rising b r master time) (ho : c.Obeys (b.slaveMove m)) :
    c.Rising (b.slaveMove m) r master time := by
  rcases h with hs | ⟨slave, hpermits, hhigh⟩
  · exact rising_of_low (by rw [scl_eq hs.masterScl, hs.slaveScl]; rfl) hs.decoder hs.observer
      hs.masterScl hs.masterSda rfl (Nat.le_add_right_of_le hs.le_ms) ho
  · exact .inr ⟨slave, hpermits, hhigh.slaveMove ho⟩

theorem slaveTurn {t : Turn} (h : c.Rising b r master time) (ho : c.Obeys (b.slaveTurn t)) :
    c.Rising (b.slaveTurn t) r master time := by
  induction t generalizing b with
  | nil => exact h
  | cons m t ih => exact ih (h.slaveMove (Obeys.of_slaveTurn (t := t) ho)) ho

theorem i2cReadScl (h : c.Rising b r master time) (ho : c.Obeys b.i2cReadScl.2) :
    c.Rising b.i2cReadScl.2 r master time := by
  rcases h with hs | ⟨slave, hpermits, hhigh⟩
  · exact rising_of_low (f := fun w => { w with masterScl := false })
      (by rw [scl_eq hs.masterScl, hs.slaveScl]; rfl) hs.decoder hs.observer rfl hs.masterSda rfl
      hs.le_ms ho
  · exact .inr ⟨slave, hpermits, hhigh.drive_same (fun w => { w with masterScl := false }) rfl
      hhigh.slaveScl hhigh.masterSda hhigh.slaveSda⟩

end Rising

/-- A slave that stands still has stretched the clock for too long. -/
theorem Stretched.not_obeys_standStill {ts : List Turn} (h : c.Stretched b r master time) :
    ¬c.Obeys ({ b with turns := ts }.standStill (c.timeout + 1)) := by
  intro ho
  have hobserver : c.observer { b with turns := ts } = ⟨b.wires, r.slots, some time, true⟩ :=
    h.observer
  have hscl : b.wires.scl = false := by rw [scl_eq h.masterScl, h.slaveScl]; rfl
  rw [Obeys, Bus.standStill, observer_drive, hobserver] at ho
  obtain ⟨-, hbrief⟩ := Observer.next_stretch
    (w := { b.wires with ms := b.wires.ms + (c.timeout + 1) }) hscl hscl h.masterScl ho
  have hlong : b.wires.ms + (c.timeout + 1) - time ≤ c.timeout := hbrief
  have hle := h.le_ms
  omega

/-- The loop goes on. -/
theorem Stretched.poll_low (h : c.Stretched b.i2cReadScl.2 r master time) :
    ¬b.i2cReadScl.1 = true ∧ ¬(b.i2cReadScl.2.wires.ms - time) % 2 ^ 32 > c.timeout := by
  constructor
  · change ¬b.i2cReadScl.2.wires.scl = true
    rw [scl_eq h.masterScl, h.slaveScl]
    decide
  · exact Nat.not_lt.mpr (Nat.le_trans (Nat.mod_le _ _) h.brief)

/-- A slave that stretches the clock briefly lets the loop end before the timeout. -/
theorem Rising.pollScl {ts : List Turn} (h : c.Rising b.i2cReadScl.2 r master time)
    (ho : c.Obeys (b.pollScl c.timeout time ts).2) :
    (b.pollScl c.timeout time ts).1 = true ∧
      ∃ slave, c.Risen (b.pollScl c.timeout time ts).2 r master slave := by
  induction ts generalizing b with
  | nil =>
    rcases h with hs | ⟨slave, hpermits, hhigh⟩
    · obtain ⟨hlow, htime⟩ := hs.poll_low
      rw [Bus.pollScl, if_neg hlow, if_neg htime] at ho
      exact absurd ho hs.not_obeys_standStill
    · rw [Bus.pollScl_of_high hhigh.scl]
      exact ⟨rfl, slave, hpermits, hhigh.setTurns _⟩
  | cons t ts ih =>
    rcases h with hs | ⟨slave, hpermits, hhigh⟩
    · obtain ⟨hlow, htime⟩ := hs.poll_low
      rw [Bus.pollScl, if_neg hlow, if_neg htime] at ho ⊢
      have hnext := Obeys.of_pollScl ho
      have hturn := Rising.slaveTurn (t := t) (.inl hs) (Obeys.of_drive hnext)
      exact ih (hturn.i2cReadScl hnext) ho
    · rw [Bus.pollScl_of_high hhigh.scl]
      exact ⟨rfl, slave, hpermits, hhigh.setTurns _⟩

theorem Low.waitForHighScl (h : c.Low b r) (hm : b.turn.wires.masterSda = master)
    (ho : c.Obeys (b.waitForHighScl c.timeout).2) :
    (b.waitForHighScl c.timeout).1 = true ∧
      ∃ slave, c.Risen (b.waitForHighScl c.timeout).2 r master slave :=
  (h.turn.i2cReadScl hm (Obeys.of_pollScl ho)).pollScl ho

theorem High.waitForHighScl (h : c.High b r master slave bit) {ms : ℕ}
    (ho : c.Obeys (b.waitForHighScl ms).2) :
    (b.waitForHighScl ms).1 = true ∧ c.High (b.waitForHighScl ms).2 r master slave bit := by
  have ht := h.turn (Obeys.of_drive (Obeys.of_pollScl ho))
  have hread : c.High b.turn.i2cReadScl.2 r master slave bit :=
    ht.drive_same (fun w => { w with masterScl := false }) rfl ht.slaveScl ht.masterSda ht.slaveSda
  rw [Bus.waitForHighScl, Bus.pollScl_of_high hread.scl]
  exact ⟨rfl, hread.setTurns _⟩

theorem turn_masterSda (b : Bus) : b.turn.wires.masterSda = b.wires.masterSda := by
  have hkept : Bus.Kept fun b' => b'.wires.masterSda = b.wires.masterSda :=
    ⟨fun _ h => h, fun _ h => h⟩
  exact hkept.turn rfl

end Watch

end WixelSdk.I2c
