import WixelSdk.WordSearch

/-!
# The 1-Wire bus

One line between a master and any number of devices, high unless somebody pulls it low. The master
sends a reset pulse or a slot: a bit that it writes, where 1 is also what it sends to read a bit.
A device answers a reset pulse with a presence pulse and waits for a ROM command. SEARCH ROM makes
it send each bit of its ROM code, then the complement, and go on if the master sends the same bit
back. MATCH ROM makes it go on as long as the master sends the bits of its ROM code. A device that
comes to the end of its ROM code, or gets SKIP ROM, is selected, and from there on it does what is
particular to it.
-/

namespace WixelSdk.OneWireBus

open WordSearch

abbrev Rom := Vector UInt8 8

/-- The bits in the order in which they are sent. -/
def romBit (rom : Rom) : Word := fun k => (rom[k / 8]?.getD 0).toBitVec.getLsbD (k % 8)

/-- A byte is sent with its least significant bit first. -/
def bitsOf (byte : UInt8) : List Bool := (List.range 8).map byte.toBitVec.getLsbD

@[simp] theorem length_bitsOf (byte : UInt8) : (bitsOf byte).length = 8 := by simp [bitsOf]

/-- The fixed part of a device. After it has been selected, `respond` gives the bit that it sends
next, from the levels of the line in the slots since then. It takes a command of 8 bits first. -/
structure Chip where
  rom : Rom
  respond : List Bool → Bool
  listens : ∀ levels : List Bool, levels.length < 8 → respond levels = true

inductive Mode
  | idle
  | command (bits : List Bool)
  | matchRom (k : ℕ)
  | searchBit (k : ℕ)
  | searchComplement (k : ℕ)
  | searchDirection (k : ℕ)
  | selected (levels : List Bool)
  deriving DecidableEq

def Mode.execute (bits : List Bool) : Mode :=
  if bits = bitsOf 0xF0 then searchBit 0
  else if bits = bitsOf 0x55 then matchRom 0
  else if bits = bitsOf 0xCC then selected []
  else idle

namespace Chip

variable (c : Chip)

def output : Mode → Bool
  | .searchBit k => romBit c.rom k
  | .searchComplement k => !romBit c.rom k
  | .selected levels => c.respond levels
  | _ => true

def next (level : Bool) : Mode → Mode
  | .idle => .idle
  | .command bits =>
    if bits.length + 1 < 8 then .command (bits ++ [level]) else .execute (bits ++ [level])
  | .matchRom k =>
    if level = romBit c.rom k then if k + 1 < 64 then .matchRom (k + 1) else .selected []
    else .idle
  | .searchBit k => .searchComplement k
  | .searchComplement k => .searchDirection k
  | .searchDirection k =>
    if level = romBit c.rom k then if k + 1 < 64 then .searchBit (k + 1) else .selected []
    else .idle
  | .selected levels => .selected (levels ++ [level])

def reply : ℕ → List Bool → List Bool
  | 0, _ => []
  | n + 1, levels => c.respond levels :: reply n (levels ++ [c.respond levels])

end Chip

structure Device where
  chip : Chip
  mode : Mode

/-- `stuckLow` says that something holds the line low all the time. -/
structure Bus where
  devices : List Device
  stuckLow : Bool

namespace Bus

def chips (bus : Bus) : List Chip := bus.devices.map Device.chip

def level (bus : Bus) (b : Bool) : Bool :=
  b && !bus.stuckLow && bus.devices.all fun d => d.chip.output d.mode

def slot (bus : Bus) (b : Bool) : Bus where
  devices := bus.devices.map fun d => ⟨d.chip, d.chip.next (bus.level b) d.mode⟩
  stuckLow := bus.stuckLow

def presence (bus : Bus) : Bool := !bus.devices.isEmpty

def resetPulse (bus : Bus) : Bus where
  devices := bus.devices.map fun d => ⟨d.chip, .command []⟩
  stuckLow := bus.stuckLow

def slots (bus : Bus) (bs : List Bool) : Bus := bs.foldl slot bus

@[simp] theorem chips_slot (bus : Bus) (b : Bool) : (bus.slot b).chips = bus.chips := by
  simp [chips, slot]

@[simp] theorem stuckLow_slot (bus : Bus) (b : Bool) : (bus.slot b).stuckLow = bus.stuckLow := rfl

@[simp] theorem chips_resetPulse (bus : Bus) : bus.resetPulse.chips = bus.chips := by
  simp [chips, resetPulse]

@[simp] theorem stuckLow_resetPulse (bus : Bus) : bus.resetPulse.stuckLow = bus.stuckLow := rfl

@[simp] theorem chips_slots (bus : Bus) (bs : List Bool) : (bus.slots bs).chips = bus.chips := by
  induction bs generalizing bus with
  | nil => rfl
  | cons b bs ih => exact (ih (bus.slot b)).trans (bus.chips_slot b)

@[simp] theorem stuckLow_slots (bus : Bus) (bs : List Bool) :
    (bus.slots bs).stuckLow = bus.stuckLow := by
  induction bs generalizing bus with
  | nil => rfl
  | cons b bs ih => exact ih (bus.slot b)

theorem slots_append (bus : Bus) (bs bs' : List Bool) :
    bus.slots (bs ++ bs') = (bus.slots bs).slots bs' :=
  List.foldl_append

theorem presence_eq (bus : Bus) : bus.presence = !bus.chips.isEmpty := by
  simp [presence, chips]

/-! ### A bus whose devices are all in known modes -/

def InMode (bus : Bus) (m : Chip → Mode) : Prop := ∀ d ∈ bus.devices, d.mode = m d.chip

variable {bus : Bus} {m : Chip → Mode}

theorem mem_chips {c : Chip} : c ∈ bus.chips ↔ ∃ d ∈ bus.devices, d.chip = c := List.mem_map

theorem inMode_resetPulse (bus : Bus) : bus.resetPulse.InMode fun _ => .command [] := by
  intro d hd
  obtain ⟨d', _, rfl⟩ := List.mem_map.mp hd
  rfl

theorem InMode.congr {m' : Chip → Mode} (h : bus.InMode m) (hm : ∀ c ∈ bus.chips, m c = m' c) :
    bus.InMode m' :=
  fun d hd => (h d hd).trans (hm d.chip (mem_chips.mpr ⟨d, hd, rfl⟩))

theorem InMode.slot (h : bus.InMode m) (b : Bool) :
    (bus.slot b).InMode fun c => c.next (bus.level b) (m c) := by
  intro d hd
  obtain ⟨d', hd', rfl⟩ := List.mem_map.mp hd
  simp only [h d' hd']

theorem InMode.level (h : bus.InMode m) (hs : bus.stuckLow = false) (b : Bool) :
    bus.level b = (b && decide (∀ c ∈ bus.chips, c.output (m c) = true)) := by
  have hall : (bus.devices.all fun d => d.chip.output d.mode) =
      decide (∀ c ∈ bus.chips, c.output (m c) = true) := by
    rw [Bool.eq_iff_iff, List.all_eq_true, decide_eq_true_iff]
    constructor
    · intro hd c hc
      obtain ⟨d, hmem, rfl⟩ := mem_chips.mp hc
      rw [← h d hmem]
      exact hd d hmem
    · intro hc d hd
      rw [h d hd]
      exact hc d.chip (mem_chips.mpr ⟨d, hd, rfl⟩)
  rw [Bus.level, hs, hall, Bool.not_false, Bool.and_true]

/-- Where nobody else pulls the line low, the line carries the master's bit. -/
theorem InMode.level_eq (h : bus.InMode m) (hs : bus.stuckLow = false)
    (hm : ∀ c ∈ bus.chips, c.output (m c) = true) (b : Bool) : bus.level b = b := by
  rw [h.level hs, decide_eq_true hm, Bool.and_true]

/-! ### ROM commands -/

theorem InMode.command {bits bs : List Bool} (h : bus.InMode fun _ => .command bits)
    (hs : bus.stuckLow = false) (hlen : bits.length + bs.length = 8) (hne : bs ≠ []) :
    (bus.slots bs).InMode fun _ => .execute (bits ++ bs) := by
  induction bs generalizing bits bus with
  | nil => exact absurd rfl hne
  | cons b bs ih =>
      have hlevel : bus.level b = b := h.level_eq hs (fun _ _ => rfl) b
      have hslot := h.slot b
      rw [hlevel] at hslot
      simp only [List.length_cons] at hlen
      cases bs with
      | nil =>
          refine hslot.congr fun c _ => ?_
          simp only [Chip.next, if_neg (show ¬ bits.length + 1 < 8 by simp at hlen; omega)]
      | cons b' bs =>
          have hnext : (bus.slot b).InMode fun _ => .command (bits ++ [b]) := by
            refine hslot.congr fun c _ => ?_
            simp only [Chip.next, if_pos (show bits.length + 1 < 8 by simp at hlen; omega)]
          have hih := ih hnext hs (by simp at hlen ⊢; omega) (List.cons_ne_nil b' bs)
          rw [List.append_assoc, List.singleton_append] at hih
          exact hih

theorem inMode_command (bus : Bus) (hs : bus.stuckLow = false) (byte : UInt8) :
    (bus.resetPulse.slots (bitsOf byte)).InMode fun _ => .execute (bitsOf byte) := by
  have hne : bitsOf byte ≠ [] := List.ne_nil_of_length_pos (by simp)
  have h := bus.inMode_resetPulse.command hs (by simp) hne
  rwa [List.nil_append] at h

/-! ### SEARCH ROM -/

def words (bus : Bus) : Set Word := wordsOf romBit (bus.chips.map Chip.rom)

theorem continues_iff {q : Word} {k : ℕ} {b : Bool} :
    Continues bus.words q k b ↔ ∃ c ∈ bus.chips, Agree k q (romBit c.rom) ∧ romBit c.rom k = b := by
  constructor
  · rintro ⟨w, ⟨r, hr, rfl⟩, hagree, hb⟩
    obtain ⟨c, hc, rfl⟩ := List.mem_map.mp hr
    exact ⟨c, hc, hagree, hb⟩
  · rintro ⟨c, hc, hagree, hb⟩
    exact ⟨_, ⟨c.rom, List.mem_map.mpr ⟨c, hc, rfl⟩, rfl⟩, hagree, hb⟩

@[simp] theorem words_slot (bus : Bus) (b : Bool) : (bus.slot b).words = bus.words := by
  simp [words]

/-- The devices whose ROM codes begin with the first `k` bits of `q` are in the mode `active`. -/
def among (q : Word) (k : ℕ) (active : Mode) (c : Chip) : Mode :=
  if Agree k q (romBit c.rom) then active else .idle

/-- The search has come to the bit `k`. -/
def atBit (k : ℕ) : Mode := if k < 64 then .searchBit k else .selected []

section Search

variable {q : Word} {k : ℕ}

theorem level_searchBit (h : bus.InMode (among q k (.searchBit k))) (hs : bus.stuckLow = false) :
    bus.level true = false ↔ Continues bus.words q k false := by
  rw [h.level hs, continues_iff]
  simp only [Bool.true_and, decide_eq_false_iff_not, not_forall, Bool.not_eq_true]
  refine exists_congr fun c => ?_
  by_cases hagree : Agree k q (romBit c.rom) <;> simp [among, hagree, Chip.output]

theorem level_searchComplement (h : bus.InMode (among q k (.searchComplement k)))
    (hs : bus.stuckLow = false) : bus.level true = false ↔ Continues bus.words q k true := by
  rw [h.level hs, continues_iff]
  simp only [Bool.true_and, decide_eq_false_iff_not, not_forall, Bool.not_eq_true]
  refine exists_congr fun c => ?_
  by_cases hagree : Agree k q (romBit c.rom) <;> simp [among, hagree, Chip.output]

theorem inMode_searchBit (h : bus.InMode (among q k (.searchBit k))) (b : Bool) :
    (bus.slot b).InMode (among q k (.searchComplement k)) := by
  refine (h.slot b).congr fun c _ => ?_
  by_cases hagree : Agree k q (romBit c.rom) <;> simp [among, hagree, Chip.next]

theorem inMode_searchComplement (h : bus.InMode (among q k (.searchComplement k))) (b : Bool) :
    (bus.slot b).InMode (among q k (.searchDirection k)) := by
  refine (h.slot b).congr fun c _ => ?_
  by_cases hagree : Agree k q (romBit c.rom) <;> simp [among, hagree, Chip.next]

/-- Only the devices that have the bit `b` at `k` go on. -/
theorem inMode_searchDirection (h : bus.InMode (among q k (.searchDirection k)))
    (hs : bus.stuckLow = false) (b : Bool) :
    (bus.slot b).InMode (among (Function.update q k b) (k + 1) (atBit (k + 1))) := by
  have hlevel : bus.level b = b := by
    refine h.level_eq hs (fun c _ => ?_) b
    by_cases hagree : Agree k q (romBit c.rom) <;> simp [among, hagree, Chip.output]
  have hslot := h.slot b
  rw [hlevel] at hslot
  refine hslot.congr fun c _ => ?_
  simp only [among, agree_succ, agree_update_left, Function.update_self]
  by_cases hagree : Agree k q (romBit c.rom)
  · by_cases hb : b = romBit c.rom k <;> simp [hagree, hb, Chip.next, atBit]
  · simp [hagree, Chip.next]

end Search

/-! ### MATCH ROM -/

/-- The first `k` bits of an address have been sent. -/
def atAddress (k : ℕ) : Mode := if k < 64 then .matchRom k else .selected []

theorem inMode_matchRom {rom : Rom} {k : ℕ} (hk : k < 64)
    (h : bus.InMode (among (romBit rom) k (atAddress k))) (hs : bus.stuckLow = false) :
    (bus.slot (romBit rom k)).InMode (among (romBit rom) (k + 1) (atAddress (k + 1))) := by
  rw [atAddress, if_pos hk] at h
  have hlevel : bus.level (romBit rom k) = romBit rom k := by
    refine h.level_eq hs (fun c _ => ?_) _
    by_cases hagree : Agree k (romBit rom) (romBit c.rom) <;> simp [among, hagree, Chip.output]
  have hslot := h.slot (romBit rom k)
  rw [hlevel] at hslot
  refine hslot.congr fun c _ => ?_
  simp only [among, agree_succ]
  by_cases hagree : Agree k (romBit rom) (romBit c.rom)
  · by_cases hb : romBit rom k = romBit c.rom k <;> simp [hagree, hb, Chip.next, atAddress]
  · simp [hagree, Chip.next]

theorem inMode_address {rom : Rom} (n : ℕ) {k : ℕ} (hk : k + n = 64)
    (h : bus.InMode (among (romBit rom) k (atAddress k))) (hs : bus.stuckLow = false) :
    (bus.slots ((List.range' k n).map (romBit rom))).InMode
      (among (romBit rom) 64 (.selected [])) := by
  induction n generalizing k bus with
  | zero =>
      obtain rfl : k = 64 := hk
      exact h
  | succ n ih =>
      rw [List.range'_succ, List.map_cons]
      exact ih (by omega) (inMode_matchRom (by omega) h hs) hs

/-! ### The selected device -/

/-- The devices with the ROM code `rom` are selected, and have seen `levels` since then. -/
def selecting (rom : Rom) (levels : List Bool) (c : Chip) : Mode :=
  if c.rom = rom then .selected levels else .idle

section Selected

variable {rom : Rom} {levels : List Bool}

theorem InMode.selecting_slot (h : bus.InMode (selecting rom levels)) (b : Bool) :
    (bus.slot b).InMode (selecting rom (levels ++ [bus.level b])) := by
  refine (h.slot b).congr fun c _ => ?_
  by_cases hrom : c.rom = rom <;> simp [selecting, hrom, Chip.next]

theorem InMode.selecting_command (bs : List Bool) (h : bus.InMode (selecting rom levels))
    (hs : bus.stuckLow = false) (hlen : levels.length + bs.length ≤ 8) :
    (bus.slots bs).InMode (selecting rom (levels ++ bs)) := by
  induction bs generalizing levels bus with
  | nil => simpa [slots] using h
  | cons b bs ih =>
      rw [List.length_cons] at hlen
      have hlevel : bus.level b = b := by
        refine h.level_eq hs (fun c _ => ?_) b
        by_cases hrom : c.rom = rom
        · simp [selecting, hrom, Chip.output, c.listens levels (by omega)]
        · simp [selecting, hrom, Chip.output]
      have hslot := h.selecting_slot b
      rw [hlevel] at hslot
      have hih := ih hslot hs (by simp; omega)
      rw [List.append_assoc, List.singleton_append] at hih
      exact hih

/-- What the master reads from the only device with this ROM code. -/
theorem InMode.selecting_level (h : bus.InMode (selecting rom levels)) (hs : bus.stuckLow = false)
    {c : Chip} (hc : c ∈ bus.chips) (hrom : c.rom = rom)
    (honly : ∀ c' ∈ bus.chips, c'.rom = rom → c' = c) : bus.level true = c.respond levels := by
  rw [h.level hs, Bool.true_and, Bool.eq_iff_iff, decide_eq_true_iff]
  constructor
  · intro hall
    simpa [selecting, hrom, Chip.output] using hall c hc
  · intro hrespond c' hc'
    by_cases hrom' : c'.rom = rom
    · rw [honly c' hc' hrom']
      simpa [selecting, hrom, Chip.output] using hrespond
    · simp [selecting, hrom', Chip.output]

end Selected

end Bus

end WixelSdk.OneWireBus
