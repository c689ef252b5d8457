import WixelSdk.OneWireSearch

/-!
# Addressing a device on the 1-Wire bus

`onewire_select` leaves exactly the devices with the given ROM code selected. If there is one, then
what `onewire_read` returns afterwards is what this device sends, whatever else is on the bus.
-/

namespace WixelSdk.OneWire

open OneWireBus WordSearch

/-! ### The bits of an address -/

theorem flatMap_bitsOf (bytes : List UInt8) :
    bytes.flatMap bitsOf = (List.range (bytes.length * 8)).map fun k =>
      (bytes[k / 8]?.getD 0).toBitVec.getLsbD (k % 8) := by
  induction bytes with
  | nil => rfl
  | cons byte bytes ih =>
      rw [List.flatMap_cons, ih, List.length_cons, Nat.succ_mul, Nat.add_comm (_ * 8),
        List.range_add, List.map_append, List.map_map, bitsOf]
      congr 1
      apply List.map_congr_left
      intro k _
      have hdiv : (8 + k) / 8 = k / 8 + 1 := by omega
      have hmod : (8 + k) % 8 = k % 8 := by omega
      simp [hdiv, hmod]

theorem flatMap_rom (rom : Rom) :
    rom.toList.flatMap bitsOf = (List.range' 0 64).map (romBit rom) := by
  rw [flatMap_bitsOf, Vector.length_toList, List.range_eq_range']
  apply List.map_congr_left
  intro k _
  rw [romBit, Vector.getElem?_toList]

/-! ### Selecting -/

variable {s : Master}

/-- After `onewire_reset` and `onewire_select`, exactly the devices with this ROM code are
selected. -/
theorem inMode_select (hs : s.bus.stuckLow = false) (rom : Rom) :
    (s.onewireReset.2.onewireSelect rom).bus.InMode (Bus.selecting rom []) := by
  rw [s.onewireReset_eq hs, Master.onewireSelect_eq, Bus.slots_append, flatMap_rom]
  have hcommand : (s.bus.resetPulse.slots (bitsOf 0x55)).InMode
      (Bus.among (romBit rom) 0 (Bus.atAddress 0)) := by
    refine (s.bus.inMode_command hs 0x55).congr fun c _ => ?_
    have hagree : Agree 0 (romBit rom) (romBit c.rom) := fun i hi => absurd hi i.not_lt_zero
    exact (if_pos hagree).symm
  refine (Bus.inMode_address 64 rfl hcommand ?_).congr fun c _ => ?_
  · exact (Bus.stuckLow_slots _ _).trans hs
  · have hrom : Agree 64 (romBit rom) (romBit c.rom) ↔ c.rom = rom := by
      constructor
      · intro h
        exact (romBit_ext rom c.rom h).symm
      · rintro rfl
        exact .refl
    simp only [Bus.among, Bus.selecting, hrom]

/-! ### Reading -/

def byteFrom (bits : List Bool) : UInt8 :=
  (Master.bitMasks.zip bits).foldl (fun r (bitMask, bit) => if bit then r ||| bitMask else r) 0

theorem byteFrom_bitsOf (byte : UInt8) : byteFrom (bitsOf byte) = byte := by
  have hall : ∀ v : BitVec 8, byteFrom (bitsOf ⟨v⟩) = ⟨v⟩ := by decide +kernel
  exact hall byte.toBitVec

variable {rom : Rom} {c : Chip} {levels : List Bool}

/-- `onewire_read` puts together what the selected device sends. -/
theorem onewireRead_reply (hs : s.bus.stuckLow = false)
    (h : s.bus.InMode (Bus.selecting rom levels)) (hc : c ∈ s.bus.chips) (hrom : c.rom = rom)
    (honly : ∀ c' ∈ s.bus.chips, c'.rom = rom → c' = c) :
    s.onewireRead.1 = byteFrom (c.reply 8 levels) ∧
      s.onewireRead.2.bus.InMode (Bus.selecting rom (levels ++ c.reply 8 levels)) := by
  have hmasks : ∀ (masks : List UInt8) (r : UInt8) (s : Master) (levels : List Bool),
      s.bus.stuckLow = false → s.bus.InMode (Bus.selecting rom levels) → c ∈ s.bus.chips →
      (∀ c' ∈ s.bus.chips, c'.rom = rom → c' = c) →
      (s.readMasks r masks).1 = (masks.zip (c.reply masks.length levels)).foldl
        (fun r (bitMask, bit) => if bit then r ||| bitMask else r) r ∧
      (s.readMasks r masks).2.bus.InMode (Bus.selecting rom (levels ++ c.reply masks.length levels)) := by
    intro masks
    induction masks with
    | nil =>
        intro r s levels _ h _ _
        exact ⟨rfl, by simpa [Chip.reply] using h⟩
    | cons bitMask masks ih =>
        intro r s levels hs h hc honly
        have hlevel := h.selecting_level hs hc hrom honly
        have hslot := h.selecting_slot true
        rw [hlevel] at hslot
        have hchips : s.onewireReadBit.2.bus.chips = s.bus.chips := Bus.chips_slot _ _
        have hih := ih (if s.onewireReadBit.1 ≠ 0 then r ||| bitMask else r) s.onewireReadBit.2
          (levels ++ [c.respond levels]) hs hslot (hchips ▸ hc) (hchips ▸ honly)
        have hbit : (s.onewireReadBit.1 ≠ 0) ↔ c.respond levels = true := by
          rw [Master.onewireReadBit, ← hlevel]
          cases s.bus.level true <;> simp
        simp only [Master.readMasks_cons, List.foldl_cons, List.length_cons, Chip.reply,
          List.zip_cons_cons]
        rw [List.append_assoc, List.singleton_append] at hih
        simp only [hbit] at hih ⊢
        exact hih
  exact hmasks Master.bitMasks 0 s levels hs h hc honly

/-- `for (i = 0; i < n; i++) data[i] = onewire_read();` -/
def Master.onewireReads (s : Master) : ℕ → List UInt8 × Master
  | 0 => ([], s)
  | n + 1 =>
    let (byte, s) := s.onewireRead
    let (bytes, s) := s.onewireReads n
    (byte :: bytes, s)

def replyBytes (c : Chip) : ℕ → List Bool → List UInt8
  | 0, _ => []
  | n + 1, levels =>
    byteFrom (c.reply 8 levels) :: replyBytes c n (levels ++ c.reply 8 levels)

theorem onewireReads_eq (n : ℕ) {s : Master} {levels : List Bool} (hs : s.bus.stuckLow = false)
    (h : s.bus.InMode (Bus.selecting rom levels)) (hc : c ∈ s.bus.chips) (hrom : c.rom = rom)
    (honly : ∀ c' ∈ s.bus.chips, c'.rom = rom → c' = c) :
    (s.onewireReads n).1 = replyBytes c n levels := by
  induction n generalizing s levels with
  | zero => rfl
  | succ n ih =>
      obtain ⟨hbyte, hmode⟩ := onewireRead_reply hs h hc hrom honly
      have hchips : s.onewireRead.2.bus.chips = s.bus.chips := by
        rw [Master.onewireRead_state]
        exact Bus.chips_slots _ _
      have hstuck : s.onewireRead.2.bus.stuckLow = false := by
        rw [Master.onewireRead_state]
        exact (Bus.stuckLow_slots _ _).trans hs
      have hbytes := ih hstuck hmode (hchips ▸ hc) (hchips ▸ honly)
      rw [Master.onewireReads, replyBytes, ← hbytes, ← hbyte]

theorem reply_add (c : Chip) (m n : ℕ) (levels : List Bool) :
    c.reply (m + n) levels = c.reply m levels ++ c.reply n (levels ++ c.reply m levels) := by
  induction m generalizing levels with
  | zero => simp [Chip.reply]
  | succ m ih =>
      rw [Nat.succ_add, Chip.reply, ih, Chip.reply, List.cons_append, List.append_assoc,
        List.singleton_append]

@[simp] theorem length_reply (c : Chip) (n : ℕ) (levels : List Bool) :
    (c.reply n levels).length = n := by
  induction n generalizing levels with
  | zero => rfl
  | succ n ih => rw [Chip.reply, List.length_cons, ih]

theorem replyBytes_eq (bytes : List UInt8) {levels : List Bool}
    (hsends : c.reply (8 * bytes.length) levels = bytes.flatMap bitsOf) :
    replyBytes c bytes.length levels = bytes := by
  induction bytes generalizing levels with
  | nil => rfl
  | cons byte bytes ih =>
      rw [List.length_cons, Nat.mul_succ, Nat.add_comm, reply_add, List.flatMap_cons] at hsends
      obtain ⟨hfirst, hrest⟩ := List.append_inj hsends (by simp)
      rw [List.length_cons, replyBytes, ih hrest, hfirst, byteFrom_bitsOf]

/-- `onewire_reset`, `onewire_select` and `onewire_write` of a function command. -/
def Master.instruct (s : Master) (rom : Rom) (command : UInt8) : Master :=
  (s.onewireReset.2.onewireSelect rom).onewireWrite command

theorem inMode_instruct {s : Master} (hs : s.bus.stuckLow = false) (rom : Rom) (command : UInt8) :
    (s.instruct rom command).bus.InMode (Bus.selecting rom (bitsOf command)) ∧
      (s.instruct rom command).bus.chips = s.bus.chips ∧
      (s.instruct rom command).bus.stuckLow = false := by
  obtain ⟨t, ht⟩ : ∃ t, t = s.onewireReset.2.onewireSelect rom := ⟨_, rfl⟩
  have hmode := inMode_select hs rom
  rw [← ht] at hmode
  have hchips : t.bus.chips = s.bus.chips := by
    rw [ht, Master.onewireSelect_eq, s.onewireReset_eq hs]
    simp only [Bus.chips_slots, Bus.chips_resetPulse]
  have hstuck : t.bus.stuckLow = false := by
    rw [ht, Master.onewireSelect_eq, s.onewireReset_eq hs]
    simp only [Bus.stuckLow_slots, Bus.stuckLow_resetPulse, hs]
  have hcommand := hmode.selecting_command (bitsOf command) hstuck (by simp)
  rw [Master.instruct, ← ht, Master.onewireWrite_eq]
  exact ⟨hcommand, (Bus.chips_slots _ _).trans hchips, (Bus.stuckLow_slots _ _).trans hstuck⟩

/-- Send a device a function command, and read `n` bytes. -/
def Master.query (s : Master) (rom : Rom) (command : UInt8) (n : ℕ) : List UInt8 :=
  ((s.instruct rom command).onewireReads n).1

theorem query_eq {s : Master} (hs : s.bus.stuckLow = false) {c : Chip} (hc : c ∈ s.bus.chips)
    (honly : ∀ c' ∈ s.bus.chips, c'.rom = c.rom → c' = c) (command : UInt8) (n : ℕ) :
    s.query c.rom command n = replyBytes c n (bitsOf command) := by
  obtain ⟨hmode, hchips, hstuck⟩ := inMode_instruct hs c.rom command
  exact onewireReads_eq n hstuck hmode (hchips ▸ hc) rfl (hchips ▸ honly)

/-- What a device answers does not depend on the other devices, nor on what has been done on the
bus before. -/
theorem query_isolated (s s' : Master) (hs : s.bus.stuckLow = false) (hs' : s'.bus.stuckLow = false)
    (c : Chip) (hc : c ∈ s.bus.chips) (hc' : c ∈ s'.bus.chips)
    (honly : ∀ d ∈ s.bus.chips, d.rom = c.rom → d = c)
    (honly' : ∀ d ∈ s'.bus.chips, d.rom = c.rom → d = c) (command : UInt8) (n : ℕ) :
    s.query c.rom command n = s'.query c.rom command n := by
  rw [query_eq hs hc honly, query_eq hs' hc' honly']

def oneThenZeros : Chip where
  rom := #v[0x28, 2, 0, 0, 0, 0, 0, 0]
  respond levels := decide (levels.length < 9)
  listens _ h := decide_eq_true (Nat.lt_succ_of_lt h)

theorem query_isolated_oneThenZeros :
    Master.query ⟨⟨⟨oneThenZeros, .idle⟩ :: twoDevices.devices, false⟩, .replicate 8 0, 0, 0, false⟩
        #v[0x28, 2, 0, 0, 0, 0, 0, 0] 0xBE 2 =
      Master.query ⟨⟨[⟨oneThenZeros, .searchBit 3⟩], false⟩, .replicate 8 0, 5, 0, true⟩
        #v[0x28, 2, 0, 0, 0, 0, 0, 0] 0xBE 2 := by
  refine query_isolated _ _ rfl rfl oneThenZeros (.head _) (.head _) ?_ ?_ 0xBE 2
  · intro d hd hrom
    rcases List.mem_cons.mp hd with rfl | hd
    · rfl
    · rcases List.mem_cons.mp hd with rfl | hd
      · exact absurd hrom (by decide)
      · rcases List.mem_cons.mp hd with rfl | hd
        · exact absurd hrom (by decide)
        · cases hd
  · intro d hd _
    rcases List.mem_cons.mp hd with rfl | hd
    · rfl
    · cases hd

end WixelSdk.OneWire
