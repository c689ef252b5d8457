import WixelSdk.I2c
import WixelSdk.Transition

/-!
# The I2C bus after a timeout

`i2cStart` and `i2cStop` do not clear the internal timeout flag, so a start after a timeout does
nothing until a byte has been transferred. A start also leaves SDA as it is when no transaction has
been started, so it makes no START when the master is still pulling SDA low.
-/

namespace WixelSdk.I2c
open TwoWire Transition

/-- The calls, each with what the slave does during it, and what happens between calls. -/
inductive Action
  | i2cSetTimeout (timeoutMs : UInt16)
  | i2cStart (turns : List Turn)
  | i2cStop (turns : List Turn)
  | i2cWriteByte (byte : UInt8) (turns : List Turn)
  | i2cReadByte (nack : Bool) (turns : List Turn)
  | clearTimeoutOccurred
  | slave (m : Move)

namespace Master

def powerUp (slaveScl slaveSda : Bool) : Master :=
  ⟨⟨⟨false, false, slaveScl, slaveSda, 0⟩, [], []⟩, 10, false, false, false⟩

def begin (s : Master) (turns : List Turn) : Master :=
  { s with bus := { s.bus with trace := [], turns := turns } }

def step (s : Master) : Action → Option Master
  | .i2cSetTimeout timeoutMs => some (s.i2cSetTimeout timeoutMs)
  | .i2cStart turns => some (s.begin turns).i2cStart
  | .i2cStop turns => some (s.begin turns).i2cStop
  | .i2cWriteByte byte turns => some ((s.begin turns).i2cWriteByte byte).2
  | .i2cReadByte nack turns => some ((s.begin turns).i2cReadByte nack).2
  | .clearTimeoutOccurred => some { s with i2cTimeoutOccurred := false }
  | .slave m => some { s with bus := s.bus.slaveMove m }

theorem Consistent.step {s t : Master} {a : Action} (h : s.Consistent) (hs : s.step a = some t) :
    t.Consistent := by
  have hbegin : ∀ turns, (s.begin turns).Consistent := fun _ => h
  cases a <;> cases hs
  case i2cStart turns => exact (hbegin turns).i2cStart
  case i2cStop turns => exact (hbegin turns).i2cStop
  case i2cWriteByte byte turns => exact .i2cWriteByte _ byte
  case i2cReadByte nack turns => exact .i2cReadByte _ nack
  all_goals exact h

end Master

/-! ### A slave that holds no line -/

structure Bus.Quiet (b : Bus) : Prop where
  scl : b.wires.slaveScl = false
  sda : b.wires.slaveSda = false
  turns : ∀ t ∈ b.turns, ∀ m ∈ t, m.scl = false ∧ m.sda = false

/-- A quiet bus on which the master pulls these lines low. -/
structure Calm (w : Wires) (b : Bus) (scl sda : Bool) : Prop where
  quiet : b.Quiet
  last : (decode w b.trace).last = b.wires
  masterScl : b.wires.masterScl = scl
  masterSda : b.wires.masterSda = sda

theorem mem_drive {w : Wires} {b : Bus} {x : Symbol} (f : Wires → Wires)
    (h : x ∈ (decode w b.trace).symbols) : x ∈ (decode w (b.drive f).trace).symbols := by
  rw [Bus.drive, decode_concat]
  exact List.mem_append_left _ h

theorem mem_drive_of_emit {w : Wires} {b : Bus} {x : Symbol} (f : Wires → Wires)
    (h : (decode w b.trace).emit (f b.wires) = [x]) :
    x ∈ (decode w (b.drive f).trace).symbols := by
  rw [Bus.drive, decode_concat]
  exact List.mem_append_right _ (h ▸ List.mem_singleton_self x)

namespace Calm

variable {w : Wires} {b : Bus} {scl sda : Bool}

theorem drive (h : Calm w b scl sda) (f : Wires → Wires) {scl' sda' : Bool}
    (hscl : (f b.wires).slaveScl = false) (hsda : (f b.wires).slaveSda = false)
    (hmasterScl : (f b.wires).masterScl = scl') (hmasterSda : (f b.wires).masterSda = sda') :
    Calm w (b.drive f) scl' sda' where
  quiet := ⟨hscl, hsda, h.quiet.turns⟩
  last := by
    rw [Bus.drive, decode_concat]
    rfl
  masterScl := hmasterScl
  masterSda := hmasterSda

theorem slaveTurn (h : Calm w b scl sda) {t : Turn} (ht : ∀ m ∈ t, m.scl = false ∧ m.sda = false) :
    Calm w (b.slaveTurn t) scl sda := by
  induction t generalizing b with
  | nil => exact h
  | cons m t ih =>
    obtain ⟨hscl, hsda⟩ := ht m List.mem_cons_self
    have hm : Calm w (b.slaveMove m) scl sda := h.drive _ hscl hsda h.masterScl h.masterSda
    exact ih hm fun m' hm' => ht m' (List.mem_cons_of_mem m hm')

theorem turn (h : Calm w b scl sda) : Calm w b.turn scl sda := by
  rw [Bus.turn]
  split
  · exact h
  · next t ts hts =>
    have hall := h.quiet.turns
    rw [hts] at hall
    have hrest : Calm w { b with turns := ts } scl sda :=
      ⟨⟨h.quiet.scl, h.quiet.sda, fun t' ht' => hall t' (List.mem_cons_of_mem t ht')⟩, h.last,
        h.masterScl, h.masterSda⟩
    exact hrest.slaveTurn (hall t List.mem_cons_self)

theorem i2cReadScl (h : Calm w b scl sda) : Calm w b.i2cReadScl.2 false sda :=
  h.drive (fun w => { w with masterScl := false }) h.quiet.scl h.quiet.sda rfl h.masterSda

theorem i2cReadSda (h : Calm w b scl sda) : Calm w b.i2cReadSda.2 scl false :=
  h.turn.drive (fun w => { w with masterSda := false }) h.turn.quiet.scl h.turn.quiet.sda
    h.turn.masterScl rfl

theorem i2cClearSda (h : Calm w b scl sda) : Calm w b.i2cClearSda scl true :=
  h.turn.drive (fun w => { w with masterSda := true }) h.turn.quiet.scl h.turn.quiet.sda
    h.turn.masterScl rfl

theorem i2cClearScl (h : Calm w b scl sda) : Calm w b.i2cClearScl true sda :=
  h.turn.drive (fun w => { w with masterScl := true }) h.turn.quiet.scl h.turn.quiet.sda rfl
    h.turn.masterSda

theorem scl_eq (h : Calm w b scl sda) : b.wires.scl = !scl := by
  rw [Wires.scl, h.masterScl, h.quiet.scl, Bool.or_false]

theorem sda_eq (h : Calm w b scl sda) : b.wires.sda = !sda := by
  rw [Wires.sda, h.masterSda, h.quiet.sda, Bool.or_false]

theorem waitForHighScl (h : Calm w b scl sda) (timeoutMs : ℕ) :
    (b.waitForHighScl timeoutMs).1 = true ∧ Calm w (b.waitForHighScl timeoutMs).2 false sda := by
  have hread := h.turn.i2cReadScl
  have hhigh : b.turn.i2cReadScl.1 = true := hread.scl_eq
  rw [Bus.waitForHighScl, Bus.pollScl_of_high hhigh]
  exact ⟨rfl, ⟨hread.quiet.scl, hread.quiet.sda, h.turn.quiet.turns⟩, hread.last, rfl,
    hread.masterSda⟩

theorem start_mem (h : Calm w b false false) :
    Symbol.start ∈ (decode w b.i2cClearSda.trace).symbols := by
  have ht := h.turn
  have hnext := h.i2cClearSda
  have hemit : (decode w b.turn.trace).emit b.i2cClearSda.wires = [.start] := by
    rw [Decoder.emit, ht.last, ht.scl_eq, hnext.scl_eq, ht.sda_eq, hnext.sda_eq]
    rfl
  exact mem_drive_of_emit (fun w => { w with masterSda := true }) hemit

theorem stop_mem (h : Calm w b false true) :
    Symbol.stop ∈ (decode w b.i2cReadSda.2.trace).symbols := by
  have ht := h.turn
  have hnext := h.i2cReadSda
  have hemit : (decode w b.turn.trace).emit b.i2cReadSda.2.wires = [.stop] := by
    rw [Decoder.emit, ht.last, ht.scl_eq, hnext.scl_eq, ht.sda_eq, hnext.sda_eq]
    rfl
  exact mem_drive_of_emit (fun w => { w with masterSda := false }) hemit

end Calm

theorem symbol_kept (w : Wires) (x : Symbol) :
    Bus.Kept fun b => x ∈ (decode w b.trace).symbols where
  turns _ h := h
  slaveMove _ h := mem_drive _ h

theorem mem_i2cClearScl {w : Wires} {b : Bus} {x : Symbol}
    (h : x ∈ (decode w b.trace).symbols) : x ∈ (decode w b.i2cClearScl.trace).symbols :=
  mem_drive _ ((symbol_kept w x).turn h)

/-! ### A master that holds SDA -/

structure Held (w : Wires) (b : Bus) : Prop where
  masterSda : b.wires.masterSda = true
  last : (decode w b.trace).last = b.wires
  start : Symbol.start ∉ (decode w b.trace).symbols

namespace Held

variable {w : Wires} {b : Bus}

theorem sda_eq (h : b.wires.masterSda = true) : b.wires.sda = false := by
  rw [Wires.sda, h, Bool.true_or]
  rfl

theorem drive (h : Held w b) (f : Wires → Wires) (hf : (f b.wires).masterSda = true) :
    Held w (b.drive f) where
  masterSda := hf
  last := by
    rw [Bus.drive, decode_concat]
    rfl
  start := by
    have hsda : (f b.wires).sda = (decode w b.trace).last.sda := by
      rw [h.last, sda_eq h.masterSda]
      exact sda_eq (b := b.drive f) hf
    have hemit : Symbol.start ∉ (decode w b.trace).emit (f b.wires) := by
      rw [Decoder.emit, if_pos hsda]
      split_ifs
      · exact List.not_mem_nil
      · rcases (decode w b.trace).bit with _ | bit
        · exact List.not_mem_nil
        · intro hm
          cases List.mem_singleton.mp hm
      · exact List.not_mem_nil
    rw [Bus.drive, decode_concat]
    intro hm
    exact (List.mem_append.mp hm).elim h.start hemit

theorem kept (w : Wires) : Bus.Kept (Held w) where
  turns _ h := ⟨h.masterSda, h.last, h.start⟩
  slaveMove _ h := h.drive _ h.masterSda

theorem waitForHighScl (h : Held w b) (timeoutMs : ℕ) :
    Held w (b.waitForHighScl timeoutMs).2 := by
  refine (kept w).waitForHighScl (fun h => ?_) (fun ms h => ?_) h
  · exact h.drive (fun w => { w with masterScl := false }) h.masterSda
  · exact h.drive (fun w => { w with ms := w.ms + ms }) h.masterSda

theorem i2cClearSda (h : Held w b) : Held w b.i2cClearSda := ((kept w).turn h).drive _ rfl

theorem i2cClearScl (h : Held w b) : Held w b.i2cClearScl :=
  ((kept w).turn h).drive _ ((kept w).turn h).masterSda

end Held

/-! ### The calls after a timeout -/

namespace Master

variable {s : Master}

structure StartWorks (s : Master) : Prop where
  start : Symbol.start ∈ (decode s.bus.wires s.i2cStart.bus.trace).symbols
  scl : s.i2cStart.bus.wires.scl = false
  started : s.i2cStart.started = true

structure StopWorks (s : Master) : Prop where
  stop : Symbol.stop ∈ (decode s.bus.wires s.i2cStop.bus.trace).symbols
  scl : s.i2cStop.bus.wires.scl = true
  sda : s.i2cStop.bus.wires.sda = true
  started : s.i2cStop.started = false

theorem calm (hq : s.bus.Quiet) (ht : s.bus.trace = []) :
    Calm s.bus.wires s.bus s.bus.wires.masterScl s.bus.wires.masterSda :=
  ⟨hq, by rw [ht]; rfl, rfl, rfl⟩

/-- The pins and the flags are as `i2cStart` needs them. -/
def Ready (s : Master) : Prop :=
  s.internalTimeoutOccurred = false ∧ (s.started = true ∨ s.bus.wires.masterSda = false)

instance (s : Master) : Decidable s.Ready := by
  unfold Ready
  infer_instance

theorem startWorks_of_ready (hq : s.bus.Quiet) (ht : s.bus.trace = []) (hr : s.Ready) :
    s.StartWorks := by
  obtain ⟨hi, hsda⟩ := hr
  obtain ⟨p, hcalm⟩ :
      ∃ p, Calm s.bus.wires (if s.started then s.i2cReadSda else s).bus p false := by
    rcases hs : s.started with _ | _
    · rw [hs] at hsda
      have hcalm := calm hq ht
      rw [hsda.resolve_left Bool.false_ne_true] at hcalm
      exact ⟨_, hcalm⟩
    · exact ⟨_, (calm hq ht).i2cReadSda⟩
  obtain ⟨hhigh, hwait⟩ := hcalm.waitForHighScl (if s.started then s.i2cReadSda else s).timeout
  have hi' : (if s.started then s.i2cReadSda else s).i2cWaitForHighScl.internalTimeoutOccurred =
      false := by
    rw [i2cWaitForHighScl_of_high hhigh]
    split_ifs <;> exact hi
  have hlast := hwait.i2cClearSda.i2cClearScl
  rw [← Bool.not_eq_true] at hi'
  refine ⟨?_, ?_, ?_⟩ <;> rw [i2cStart, if_neg hi', i2cWaitForHighScl_of_high hhigh]
  · exact mem_i2cClearScl hwait.start_mem
  · exact hlast.scl_eq

theorem startWorks_iff (hc : s.Consistent) (hq : s.bus.Quiet) (ht : s.bus.trace = []) :
    s.StartWorks ↔ s.Ready := by
  refine ⟨fun h => ?_, startWorks_of_ready hq ht⟩
  have hi : s.internalTimeoutOccurred = false := by
    rcases hi : s.internalTimeoutOccurred with _ | _
    · rfl
    · exact absurd h.started (Bool.eq_false_iff.mp (hc.i2cStart_of_timeout hi).2)
  refine ⟨hi, ?_⟩
  by_contra hsda
  obtain ⟨hs, hsda⟩ := not_or.mp hsda
  have hheld : Held s.bus.wires s.bus := by
    refine ⟨Bool.not_eq_false _ ▸ hsda, by rw [ht]; rfl, ?_⟩
    rw [ht]
    exact List.not_mem_nil
  have hwait := hheld.waitForHighScl s.timeout
  rw [← i2cWaitForHighScl_bus] at hwait
  have hstart : Held s.bus.wires s.i2cStart.bus := by
    rw [i2cStart, if_neg hs]
    split_ifs
    · exact hwait
    · exact hwait.i2cClearSda.i2cClearScl
  exact hstart.start h.start

theorem stopWorks (hc : s.Consistent) (hq : s.bus.Quiet) (ht : s.bus.trace = [])
    (hs : s.started = true) : s.StopWorks := by
  obtain ⟨hhigh, hwait⟩ := (calm hq ht).i2cClearSda.waitForHighScl s.timeout
  have heq : s.i2cClearSda.i2cWaitForHighScl = { s.i2cClearSda with
      bus := (s.bus.i2cClearSda.waitForHighScl s.timeout).2 } := i2cWaitForHighScl_of_high hhigh
  have hi : ¬s.i2cClearSda.i2cWaitForHighScl.internalTimeoutOccurred = true := by
    rw [heq]
    exact Bool.eq_false_iff.mp (hc hs)
  have hlast := hwait.i2cReadSda
  refine ⟨?_, ?_, ?_, ?_⟩ <;> rw [i2cStop, if_neg hi, heq]
  · exact hwait.stop_mem
  · exact hlast.scl_eq
  · exact hlast.sda_eq

end Master

/-- Whatever has been called before, once the slave holds no line a start makes a START exactly
when the pins and the flags are ready for it, and a stop works on every started bus. -/
theorem recovers_iff_ready {slaveScl slaveSda : Bool} {s : Master}
    (hr : Run Master.step (fun _ _ => True) (.powerUp slaveScl slaveSda) s) {turns : List Turn}
    (hq : (s.begin turns).bus.Quiet) :
    ((s.begin turns).StartWorks ∧ (s.started = true → (s.begin turns).StopWorks)) ↔ s.Ready := by
  have hc : s.Consistent := hr.invariant (Master.Consistent.of_started rfl)
    fun _ _ _ hc _ hs => hc.step hs
  have hc' : (s.begin turns).Consistent := hc
  rw [Master.startWorks_iff hc' hq rfl]
  exact ⟨And.left, fun h => ⟨h, fun hs => Master.stopWorks hc' hq rfl hs⟩⟩

/-- A byte that is not acknowledged after the slave has stretched the clock for 20 ms. -/
theorem recovers_iff_ready_nack :
    ∃ s : Master, s.i2cTimeoutOccurred = true ∧
      (((s.begin []).StartWorks ∧ (s.started = true → (s.begin []).StopWorks)) ↔ s.Ready) ∧
      s.Ready := by
  have hrun : (exec Master.step (fun _ _ => True) (.powerUp true false)
      [.i2cStart [[], [⟨20, true, false⟩]], .slave ⟨0, false, false⟩, .i2cWriteByte 7 []]).map
        (fun s => (s.i2cTimeoutOccurred, s.bus.turns, s.bus.wires.slaveScl, s.bus.wires.slaveSda,
          decide s.Ready)) = some (true, [], false, false, true) := by
    decide +kernel
  obtain ⟨s, hr, hv⟩ := exists_run_of_exec hrun
  simp only [Prod.mk.injEq, decide_eq_true_eq] at hv
  obtain ⟨htimeout, -, hscl, hsda, hready⟩ := hv
  exact ⟨s, htimeout, recovers_iff_ready hr ⟨hscl, hsda, fun _ ht => by cases ht⟩, hready⟩

/-- The slave holds SCL during a start and then lets go of it: the next start does nothing. -/
theorem not_recovers_of_timeout :
    ¬∀ (s : Master) (turns : List Turn),
      Run Master.step (fun _ _ => True) (.powerUp true false) s → (s.begin turns).bus.Quiet →
        (s.begin turns).StartWorks ∧ (s.started = true → (s.begin turns).StopWorks) := by
  intro hall
  have hrun : (exec Master.step (fun _ _ => True) (.powerUp true false)
      [.i2cStart [[], [⟨20, true, false⟩]], .slave ⟨0, false, false⟩]).map
        (fun s => (s.bus.wires.slaveScl, s.bus.wires.slaveSda, (s.begin []).i2cStart.started)) =
          some (false, false, false) := by
    decide +kernel
  obtain ⟨s, hr, hv⟩ := exists_run_of_exec hrun
  simp only [Prod.mk.injEq] at hv
  obtain ⟨hscl, hsda, hstarted⟩ := hv
  have hworks := (hall s [] hr ⟨hscl, hsda, fun _ ht => by cases ht⟩).1.started
  rw [hstarted] at hworks
  cases hworks

end WixelSdk.I2c
