import WixelSdk.OneWire

/-!
# The 1-Wire search
-/

namespace WixelSdk.OneWire

open OneWireBus WordSearch

/-! ### Bits of the ROM code -/

theorem romBit_ext (r r' : Rom) (h : Agree 64 (romBit r) (romBit r')) : r = r' := by
  refine Vector.ext fun i hi => ?_
  apply UInt8.toBitVec_inj.mp
  apply BitVec.eq_of_getLsbD_eq
  intro j hj
  have hbit := h (8 * i + j) (by omega)
  have hdiv : (8 * i + j) / 8 = i := by omega
  have hmod : (8 * i + j) % 8 = j := by omega
  simpa [romBit, hdiv, hmod, hi] using hbit

section Bits

variable {rom : Rom} {byteMask : UInt8} {k : ℕ}

theorem and_mask_pos (hm : byteMask.toBitVec = BitVec.twoPow 8 (k % 8)) (byte : UInt8) :
    byte &&& byteMask > 0 ↔ byte.toBitVec.getLsbD (k % 8) = true := by
  have hlt : k % 8 < 8 := Nat.mod_lt k (by omega)
  have hpos : 0 < 2 ^ (k % 8) := Nat.two_pow_pos _
  rw [gt_iff_lt, UInt8.lt_iff_toNat_lt, ← UInt8.toNat_toBitVec (_ &&& _), UInt8.toBitVec_and, hm,
    BitVec.and_twoPow]
  cases byte.toBitVec.getLsbD (k % 8) <;> simp [BitVec.toNat_twoPow_of_lt hlt, hpos]

theorem romBit_set (hm : byteMask.toBitVec = BitVec.twoPow 8 (k % 8)) (hk : k < 64) (b : Bool) :
    romBit (rom.setIfInBounds (k / 8) (if b then rom[k / 8]?.getD 0 ||| byteMask
      else rom[k / 8]?.getD 0 &&& ~~~byteMask)) = Function.update (romBit rom) k b := by
  funext i
  have hk8 : k / 8 < 8 := by omega
  have hlt : k % 8 < 8 := Nat.mod_lt k (by omega)
  have hi : i % 8 < 8 := Nat.mod_lt i (by omega)
  rw [romBit, Vector.getElem?_setIfInBounds]
  by_cases hdiv : k / 8 = i / 8
  · rw [if_pos hdiv, if_pos hk8, Option.getD_some, Function.update_apply]
    by_cases hik : i = k
    · cases b <;> simp [hm, hik, hlt]
    · have hmod : i % 8 ≠ k % 8 := by omega
      cases b <;> simp [romBit, hm, hdiv, hik, hi, hmod]
  · have hne : i ≠ k := by rintro rfl; exact hdiv rfl
    rw [if_neg hdiv, Function.update_of_ne hne, romBit]

end Bits

/-! ### One turn of the loop -/

/-- `k` turns of the loop have chosen the first `k` bits, and the devices that have these bits are
in the mode `active`: `p` was in `ROM_NO` before, and its last branch was `d`. -/
structure Chosen (cs : List Chip) (p : Rom) (d k : ℕ) (active : Mode) (l : Loop) : Prop where
  idBitNumber : l.idBitNumber.toNat = k + 1
  romByteNumber : l.romByteNumber.toNat = k / 8
  romByteMask : l.romByteMask.toBitVec = BitVec.twoPow 8 (k % 8)
  lastDiscrepancy : l.master.lastDiscrepancy.toNat = d
  lastDeviceFlag : l.master.lastDeviceFlag = false
  chips : l.master.bus.chips = cs
  stuckLow : l.master.bus.stuckLow = false
  inMode : l.master.bus.InMode (Bus.among (romBit l.master.romNo) k active)
  later : ∀ i, k ≤ i → romBit l.master.romNo i = romBit p i
  walk : Walk (wordsOf romBit (cs.map Chip.rom)) (romBit p) d k (romBit l.master.romNo)
    l.lastZero.toNat

namespace Loop

variable {l : Loop} {k : ℕ}

def lineBit (b : Bool) : UInt8 := if b then 1 else 0

theorem lineBit_eq_one {b : Bool} : lineBit b = 1 ↔ b = true := by cases b <;> decide

theorem lineBit_inj {b c : Bool} : lineBit b = lineBit c ↔ b = c := by
  cases b <;> cases c <;> decide

theorem searchDirection_eq {p : Word} {d : ℕ} {zero one : Bool}
    (hid : l.idBitNumber.toNat = k + 1) (hd : l.master.lastDiscrepancy.toNat = d)
    (hp : l.romByte &&& l.romByteMask > 0 ↔ p k = true) (hany : zero = true ∨ one = true) :
    l.searchDirection (lineBit (!zero)) (lineBit (!one)) = lineBit (direction d k p zero one) := by
  have hlt : l.idBitNumber < l.master.lastDiscrepancy ↔ k + 1 < d := by
    rw [UInt8.lt_iff_toNat_lt, hid, hd]
  have heq : l.idBitNumber = l.master.lastDiscrepancy ↔ k + 1 = d := by
    rw [← UInt8.toNat_inj, hid, hd]
  rw [searchDirection, direction]
  cases zero <;> cases one
  · simp at hany
  · simp [lineBit]
  · simp [lineBit]
  · rw [if_neg (by simp), Bool.and_true, if_pos rfl]
    by_cases h : k + 1 < d
    · rw [if_pos (hlt.mpr h), if_pos h, lineBit]
      simp only [hp]
    · rw [if_neg (mt hlt.mp h), if_neg h, lineBit]
      simp only [heq, beq_iff_eq]

theorem iteration_eq {zero one : Bool} (hz : zero = !l.master.bus.level true)
    (ho : one = !(l.master.bus.slot true).level true) (hany : zero = true ∨ one = true) :
    l.iteration =
      (false, choose { l with master := l.master.onewireReadBit.2.onewireReadBit.2 }
        (lineBit (!zero)) (lineBit (!one))) := by
  have hid : l.master.onewireReadBit.1 = lineBit (!zero) := by rw [hz, Bool.not_not]; rfl
  have hcmp : l.master.onewireReadBit.2.onewireReadBit.1 = lineBit (!one) := by
    rw [ho, Bool.not_not]; rfl
  have hboth : ¬ (lineBit (!zero) = 1 ∧ lineBit (!one) = 1) := by
    rw [lineBit_eq_one, lineBit_eq_one]
    rcases hany with rfl | rfl <;> simp
  rw [iteration]
  simp only [hid, hcmp, if_neg hboth]

end Loop

theorem shift_mask {mask : UInt8} {k : ℕ} (hm : mask.toBitVec = BitVec.twoPow 8 (k % 8)) :
    (mask <<< 1 = 0 ↔ k % 8 = 7) ∧
      (k % 8 ≠ 7 → (mask <<< 1).toBitVec = BitVec.twoPow 8 (k % 8 + 1)) := by
  have hall : ∀ j < 8, ((⟨BitVec.twoPow 8 j⟩ : UInt8) <<< 1 = 0 ↔ j = 7) ∧
      (j ≠ 7 → ((⟨BitVec.twoPow 8 j⟩ : UInt8) <<< 1).toBitVec = BitVec.twoPow 8 (j + 1)) := by
    decide
  obtain rfl : mask = ⟨BitVec.twoPow 8 (k % 8)⟩ := UInt8.toBitVec_inj.mp hm
  exact hall (k % 8) (Nat.mod_lt k (by omega))

structure Loop.AtBit (k : ℕ) (l : Loop) : Prop where
  romByteNumber : l.romByteNumber.toNat = k / 8
  romByteMask : l.romByteMask.toBitVec = BitVec.twoPow 8 (k % 8)

theorem Loop.AtBit.choose {l : Loop} {k : ℕ} (h : l.AtBit k) (hk : k < 64)
    (idBit cmpIdBit : UInt8) : (l.choose idBit cmpIdBit).AtBit (k + 1) := by
  obtain ⟨hnumber, hmask⟩ := h
  obtain ⟨hshift, hshift'⟩ := shift_mask hmask
  constructor
  · rw [Loop.romByteNumber_choose]
    simp only [hshift]
    split_ifs with hlast
    · rw [UInt8.toNat_add, hnumber, UInt8.toNat_one]
      omega
    · rw [hnumber]
      omega
  · rw [Loop.romByteMask_choose]
    simp only [hshift]
    split_ifs with hlast
    · rw [show (k + 1) % 8 = 0 by omega]
      rfl
    · rw [hshift' hlast, show (k + 1) % 8 = k % 8 + 1 by omega]

theorem Loop.AtBit.lt_iff {l : Loop} {k : ℕ} (h : l.AtBit k) : l.romByteNumber < 8 ↔ k < 64 := by
  rw [UInt8.lt_iff_toNat_lt, h.romByteNumber]
  simp only [UInt8.reduceToNat]
  omega

theorem Loop.exists_choose {l l' : Loop} (h : l.iteration = (false, l')) :
    ∃ idBit cmpIdBit s, l' = Loop.choose { l with master := s } idBit cmpIdBit := by
  rw [Loop.iteration] at h
  dsimp only at h
  split at h
  · exact absurd (congrArg Prod.fst h).symm Bool.false_ne_true
  · exact ⟨_, _, _, (congrArg Prod.snd h).symm⟩

/-- On any bus the loop ends by itself: it never takes more than 64 turns. -/
theorem Loop.AtBit.search_add (turns : ℕ) {l : Loop} {k : ℕ} (h : l.AtBit k)
    (hturns : k + turns = 64) (hpos : 0 < turns) (m : ℕ) :
    l.search (turns + m) = l.search turns := by
  induction turns generalizing k l with
  | zero => exact absurd hpos (lt_irrefl 0)
  | succ turns ih =>
      rw [Nat.succ_add, Loop.search, Loop.search]
      rcases hl : l.iteration with ⟨_ | _, l'⟩
      · have hat : l'.AtBit (k + 1) := by
          obtain ⟨idBit, cmpIdBit, s, rfl⟩ := Loop.exists_choose hl
          have hread : Loop.AtBit k { l with master := s } := ⟨h.romByteNumber, h.romByteMask⟩
          exact hread.choose (by omega) idBit cmpIdBit
        by_cases hlt : l'.romByteNumber < 8
        · have hk := hat.lt_iff.mp hlt
          simp only [if_pos hlt]
          exact ih hat (by omega) (by omega)
        · simp only [if_neg hlt]
      · rfl

variable {cs : List Chip} {p : Rom} {d k : ℕ} {l : Loop}

theorem Chosen.words {active : Mode} (h : Chosen cs p d k active l) :
    l.master.bus.words = wordsOf romBit (cs.map Chip.rom) := by
  rw [Bus.words, h.chips]

/-- The bit that has been chosen is sent to the devices, which have both been asked. -/
theorem Chosen.choose (h : Chosen cs p d k (.searchDirection k) l) (hk : k < 64)
    (hprev : Previous (wordsOf romBit (cs.map Chip.rom)) 64 (romBit p) d) {zero one : Bool}
    (hz : zero = true ↔
      Continues (wordsOf romBit (cs.map Chip.rom)) (romBit l.master.romNo) k false)
    (ho : one = true ↔
      Continues (wordsOf romBit (cs.map Chip.rom)) (romBit l.master.romNo) k true)
    (hany : zero = true ∨ one = true) :
    Chosen cs p d (k + 1) (Bus.atBit (k + 1))
      (l.choose (Loop.lineBit (!zero)) (Loop.lineBit (!one))) := by
  have hstep := h.walk.step hprev hz ho
  obtain ⟨b, hb⟩ : ∃ b, b = direction d k (romBit p) zero one := ⟨_, rfl⟩
  have hbyte : l.romByte &&& l.romByteMask > 0 ↔ romBit p k = true := by
    rw [and_mask_pos h.romByteMask, ← h.later k le_rfl, romBit, Loop.romByte, h.romByteNumber]
  have hdir := Loop.searchDirection_eq h.idBitNumber h.lastDiscrepancy hbyte hany
  rw [← hb] at hstep hdir
  have hrom : romBit (l.choose (Loop.lineBit (!zero)) (Loop.lineBit (!one))).master.romNo =
      Function.update (romBit l.master.romNo) k b := by
    rw [Loop.romNo_choose, hdir, h.romByteNumber, ← romBit_set h.romByteMask hk, Loop.romByte,
      h.romByteNumber]
    simp only [Loop.lineBit_eq_one]
  have hat := Loop.AtBit.choose ⟨h.romByteNumber, h.romByteMask⟩ hk
    (Loop.lineBit (!zero)) (Loop.lineBit (!one))
  have hid := h.idBitNumber
  refine ⟨?_, hat.romByteNumber, hat.romByteMask, ?_, ?_, ?_, ?_, ?_, ?_, ?_⟩
  · rw [Loop.idBitNumber_choose, UInt8.toNat_add, hid, UInt8.toNat_one]
    omega
  · rw [Loop.lastDiscrepancy_choose, h.lastDiscrepancy]
  · rw [Loop.lastDeviceFlag_choose, h.lastDeviceFlag]
  · rw [Loop.bus_choose, Bus.chips_slot, h.chips]
  · rw [Loop.bus_choose, Bus.stuckLow_slot, h.stuckLow]
  · have hslot : (Loop.lineBit b &&& 1 != 0) = b := by cases b <;> decide
    rw [Loop.bus_choose, hdir, hslot, hrom]
    exact Bus.inMode_searchDirection h.inMode h.stuckLow b
  · intro i hi
    rw [hrom, Function.update_of_ne (by omega)]
    exact h.later i (by omega)
  · have hzero : (l.choose (Loop.lineBit (!zero)) (Loop.lineBit (!one))).lastZero.toNat =
        if zero && one && !b then k + 1 else l.lastZero.toNat := by
      have hboth : (Loop.lineBit (!zero) = Loop.lineBit (!one) ∧ Loop.lineBit b = 0) ↔
          (zero && one && !b) = true := by
        have hb0 : Loop.lineBit b = 0 ↔ b = false := by cases b <;> decide
        rw [Loop.lineBit_inj, hb0]
        rcases hany with rfl | rfl <;> simp
      rw [Loop.lastZero_choose, hdir]
      simp only [hboth]
      split_ifs
      · exact hid
      · rfl
    rw [hrom, hzero]
    exact hstep

theorem Chosen.iteration (h : Chosen cs p d k (Bus.atBit k) l) (hk : k < 64)
    (hprev : Previous (wordsOf romBit (cs.map Chip.rom)) 64 (romBit p) d) :
    ∃ l', l.iteration = (false, l') ∧ Chosen cs p d (k + 1) (Bus.atBit (k + 1)) l' := by
  have hmode := h.inMode
  rw [Bus.atBit, if_pos hk] at hmode
  have hmode₁ := Bus.inMode_searchBit hmode true
  have hmode₂ := Bus.inMode_searchComplement hmode₁ true
  obtain ⟨zero, hzero⟩ : ∃ zero, zero = !l.master.bus.level true := ⟨_, rfl⟩
  obtain ⟨one, hone⟩ : ∃ one, one = !(l.master.bus.slot true).level true := ⟨_, rfl⟩
  have hz : zero = true ↔
      Continues (wordsOf romBit (cs.map Chip.rom)) (romBit l.master.romNo) k false := by
    rw [hzero, Bool.not_eq_true', Bus.level_searchBit hmode h.stuckLow, h.words]
  have ho : one = true ↔
      Continues (wordsOf romBit (cs.map Chip.rom)) (romBit l.master.romNo) k true := by
    rw [hone, Bool.not_eq_true', Bus.level_searchComplement hmode₁ h.stuckLow, Bus.words_slot,
      h.words]
  have hany : zero = true ∨ one = true := by
    obtain ⟨w, hw, hagree⟩ := h.walk.reached
    cases hwk : w k with
    | false => exact .inl (hz.mpr ⟨w, hw, hagree, hwk⟩)
    | true => exact .inr (ho.mpr ⟨w, hw, hagree, hwk⟩)
  refine ⟨_, Loop.iteration_eq hzero hone hany, ?_⟩
  have hread : Chosen cs p d k (.searchDirection k)
      { l with master := l.master.onewireReadBit.2.onewireReadBit.2 } :=
    { idBitNumber := h.idBitNumber
      romByteNumber := h.romByteNumber
      romByteMask := h.romByteMask
      lastDiscrepancy := h.lastDiscrepancy
      lastDeviceFlag := h.lastDeviceFlag
      chips := (Bus.chips_slot _ _).trans ((Bus.chips_slot _ _).trans h.chips)
      stuckLow := h.stuckLow
      inMode := hmode₂
      later := h.later
      walk := h.walk }
  exact hread.choose hk hprev hz ho hany

theorem Chosen.search (turns : ℕ) (h : Chosen cs p d k (Bus.atBit k) l)
    (hturns : k + turns = 64) (hpos : 0 < turns)
    (hprev : Previous (wordsOf romBit (cs.map Chip.rom)) 64 (romBit p) d) :
    Chosen cs p d 64 (Bus.atBit 64) (l.search turns) := by
  induction turns generalizing k l with
  | zero => exact absurd hpos (lt_irrefl 0)
  | succ turns ih =>
      obtain ⟨l', hl', h'⟩ := h.iteration (by omega) hprev
      have hmore := Loop.AtBit.lt_iff ⟨h'.romByteNumber, h'.romByteMask⟩
      simp only [Loop.search, hl', hmore]
      split_ifs with hlt
      · exact ih h' (by omega) (by omega)
      · have hk : k + 1 = 64 := by omega
        rw [hk] at h'
        exact h'

/-! ### One search -/

theorem words_nonempty {c : Chip} (hc : c ∈ cs) :
    romBit c.rom ∈ wordsOf romBit (cs.map Chip.rom) :=
  ⟨c.rom, List.mem_map.mpr ⟨c, hc, rfl⟩, rfl⟩

theorem chosen_start {s : Master} (hs : s.bus.stuckLow = false) (hf : s.lastDeviceFlag = false)
    {c : Chip} (hc : c ∈ s.bus.chips) :
    Chosen s.bus.chips s.romNo s.lastDiscrepancy.toNat 0 (Bus.atBit 0)
      (Loop.start (s.onewireReset.2.onewireWrite 0xF0)) := by
  rw [s.onewireReset_eq hs, Master.onewireWrite_eq]
  exact
    { idBitNumber := rfl
      romByteNumber := rfl
      romByteMask := rfl
      lastDiscrepancy := rfl
      lastDeviceFlag := hf
      chips := (Bus.chips_slots _ _).trans s.bus.chips_resetPulse
      stuckLow := (Bus.stuckLow_slots _ _).trans hs
      inMode := by
        refine (s.bus.inMode_command hs 0xF0).congr fun c _ => ?_
        have hagree : Agree 0 (romBit s.romNo) (romBit c.rom) :=
          fun i hi => absurd hi i.not_lt_zero
        exact (if_pos hagree).symm
      later := fun _ _ => rfl
      walk := .start (words_nonempty hc) }

/-- The searches have come to the index `i`: the last one has found the device before, if there is
one. -/
structure Ready (cs : List Chip) (ls : List Rom) (i : ℕ) (s : Master) : Prop where
  chips : s.bus.chips = cs
  stuckLow : s.bus.stuckLow = false
  first : i = 0 → s.lastDiscrepancy = 0
  located : ∀ j, i = j + 1 →
    Located romBit 64 (cs.map Chip.rom) ls j s.romNo s.lastDiscrepancy.toNat
  lastDeviceFlag : s.lastDeviceFlag = (i != 0 && s.lastDiscrepancy == 0)

variable {ls : List Rom} {i : ℕ} {s : Master}

theorem Ready.forget (h : Ready cs ls i s) : Ready cs ls 0 s.forget where
  chips := h.chips
  stuckLow := h.stuckLow
  first _ := rfl
  located j hj := absurd hj.symm j.succ_ne_zero
  lastDeviceFlag := rfl

theorem toNat_eq_zero_iff {v : UInt8} : v.toNat = 0 ↔ v = 0 := by
  rw [← UInt8.toNat_inj, UInt8.toNat_zero]

theorem Ready.lastDeviceFlag_iff (hls : Listing romBit 64 (cs.map Chip.rom) ls)
    (h : Ready cs ls i s) : s.lastDeviceFlag = true ↔ i ≠ 0 ∧ i = ls.length := by
  rw [h.lastDeviceFlag, Bool.and_eq_true, bne_iff_ne, beq_iff_eq]
  refine and_congr_right fun hi => ?_
  obtain ⟨j, rfl⟩ := Nat.exists_eq_succ_of_ne_zero hi
  rw [← toNat_eq_zero_iff, (h.located j rfl).zero_iff hls]

/-- The state in which the loop ends. -/
theorem Ready.search (hls : Listing romBit 64 (cs.map Chip.rom) ls) (h : Ready cs ls i s)
    (hi : i < ls.length) :
    ∃ l : Loop, (Loop.start (s.onewireReset.2.onewireWrite 0xF0)).search 64 = l ∧
      ¬ l.idBitNumber < 65 ∧ ls[i]? = some l.master.romNo ∧
      Ready cs ls (i + 1) (l.master.found l.lastZero) := by
  have hflag : s.lastDeviceFlag = false := by
    rw [Bool.eq_false_iff, Ne, h.lastDeviceFlag_iff hls]
    omega
  obtain ⟨c, hc, -⟩ := List.mem_map.mp ((hls.mem _).mp (List.getElem_mem hi))
  have hprev : Previous (wordsOf romBit (cs.map Chip.rom)) 64 (romBit s.romNo)
      s.lastDiscrepancy.toNat := by
    intro hd
    obtain ⟨j, rfl⟩ : ∃ j, i = j + 1 := by
      apply Nat.exists_eq_succ_of_ne_zero
      rintro rfl
      exact hd (toNat_eq_zero_iff.mpr (h.first rfl))
    have hat := h.located j rfl
    exact ⟨⟨_, hls.mem_wordsOf hat.index, .refl⟩, hat.lastBranch⟩
  have hstart := chosen_start h.stuckLow hflag (h.chips ▸ hc)
  rw [h.chips] at hstart
  have hend := hstart.search 64 rfl (by omega) hprev
  obtain ⟨l, hl⟩ : ∃ l, (Loop.start (s.onewireReset.2.onewireWrite 0xF0)).search 64 = l :=
    ⟨_, rfl⟩
  rw [hl] at hend
  refine ⟨l, hl, ?_, ?_⟩
  · rw [UInt8.lt_iff_toNat_lt, hend.idBitNumber]
    exact lt_irrefl 65
  · have hat : Located romBit 64 (cs.map Chip.rom) ls i l.master.romNo l.lastZero.toNat := by
      rcases Nat.eq_zero_or_pos i with rfl | hpos
      · have hwalk := hend.walk
        rw [toNat_eq_zero_iff.mpr (h.first rfl)] at hwalk
        exact hls.first romBit_ext hwalk
      · obtain ⟨j, rfl⟩ := Nat.exists_eq_succ_of_ne_zero hpos.ne'
        have hd : s.lastDiscrepancy.toNat ≠ 0 := by
          rw [Ne, (h.located j rfl).zero_iff hls]
          exact hi.ne
        exact hls.next romBit_ext (h.located j rfl) hd hend.walk
    refine ⟨hat.index, hend.chips, hend.stuckLow, fun h0 => absurd h0 i.succ_ne_zero, ?_, ?_⟩
    · intro j hj
      obtain rfl := Nat.succ.inj hj
      exact hat
    · simp [Master.found, hend.lastDeviceFlag]

theorem Ready.presence (h : Ready cs ls i s) : s.onewireReset.1 = !cs.isEmpty := by
  rw [s.onewireReset_eq h.stuckLow, ← h.chips, ← Bus.presence_eq]

theorem Ready.onewireSearch_eq (hls : Listing romBit 64 (cs.map Chip.rom) ls)
    (h : Ready cs ls i s) (hi : i < ls.length) (newAddr : Rom) :
    ∃ s', s.onewireSearch newAddr = s'.conclude true ∧ ls[i]? = some s'.romNo ∧
      Ready cs ls (i + 1) s' := by
  obtain ⟨l, hl, hid, hindex, hready⟩ := h.search hls hi
  have hflag : s.lastDeviceFlag = false := by
    rw [Bool.eq_false_iff, Ne, h.lastDeviceFlag_iff hls]
    omega
  have hne : cs ≠ [] := by
    rintro rfl
    exact absurd ((hls.mem _).mp (List.getElem_mem hi)) List.not_mem_nil
  have hpresence : s.onewireReset.1 = true := by simp [h.presence, hne]
  refine ⟨l.master.found l.lastZero, ?_, hindex, hready⟩
  rw [Master.onewireSearch_eq, hflag, if_neg Bool.false_ne_true, if_pos hpresence, hl]
  exact if_neg hid

/-- It finds it, unless the family code is 0. -/
theorem Ready.onewireSearch_found (hls : Listing romBit 64 (cs.map Chip.rom) ls)
    (h : Ready cs ls i s) (hfamily : ∀ r ∈ ls, familyCode r ≠ 0) (hi : i < ls.length)
    (newAddr : Rom) :
    ∃ r s', s.onewireSearch newAddr = (true, r, s') ∧ ls[i]? = some r ∧ Ready cs ls (i + 1) s' := by
  obtain ⟨s', heq, hindex, hready⟩ := h.onewireSearch_eq hls hi newAddr
  have hzero : familyCode s'.romNo ≠ 0 := hfamily _ (List.mem_of_getElem? hindex)
  refine ⟨s'.romNo, s', ?_, hindex, hready⟩
  rw [heq, Master.conclude]
  simp [hzero]

/-- Without a device a search does not even write the address. -/
theorem onewireSearch_of_no_chips (hs : s.bus.stuckLow = false) (hchips : s.bus.chips = [])
    (hflag : s.lastDeviceFlag = false) (newAddr : Rom) :
    s.onewireSearch newAddr =
      (false, newAddr, { s with bus := s.bus.resetPulse }.forget) := by
  have hpresence : s.bus.presence = false := by rw [Bus.presence_eq, hchips]; rfl
  rw [Master.onewireSearch_eq, hflag, if_neg Bool.false_ne_true, s.onewireReset_eq hs, hpresence,
    if_neg Bool.false_ne_true]
  rfl

theorem chips_eq_nil (hls : Listing romBit 64 (cs.map Chip.rom) []) : cs = [] := by
  have hmap : cs.map Chip.rom = [] :=
    List.eq_nil_iff_forall_not_mem.mpr fun r hr => absurd ((hls.mem r).mpr hr) List.not_mem_nil
  exact List.map_eq_nil_iff.mp hmap

theorem Ready.onewireSearch_end (hls : Listing romBit 64 (cs.map Chip.rom) ls)
    (h : Ready cs ls i s) (hi : i = ls.length) (newAddr : Rom) :
    ∃ r s', s.onewireSearch newAddr = (false, r, s') ∧ Ready cs ls 0 s' := by
  by_cases h0 : i = 0
  · have hflag : s.lastDeviceFlag = false := by
      rw [Bool.eq_false_iff, Ne, h.lastDeviceFlag_iff hls]
      exact fun hflag => hflag.1 h0
    obtain rfl : ls = [] := List.eq_nil_of_length_eq_zero (hi.symm.trans h0)
    have hchips : s.bus.chips = [] := h.chips.trans (chips_eq_nil hls)
    refine ⟨newAddr, _, onewireSearch_of_no_chips h.stuckLow hchips hflag newAddr, ?_⟩
    refine ⟨s.bus.chips_resetPulse.trans h.chips, h.stuckLow, fun _ => rfl, ?_, rfl⟩
    exact fun j hj => absurd hj.symm j.succ_ne_zero
  · rw [Master.onewireSearch_eq, if_pos ((h.lastDeviceFlag_iff hls).mpr ⟨h0, hi⟩)]
    exact ⟨s.romNo, s.forget, rfl, h.forget⟩

/-! ### Any use of the bus -/

/-- The calls that do not reset the search. -/
inductive Call
  | search
  | reset
  | writeBit (v : UInt8)
  | readBit
  | write (v : UInt8)
  | read
  | select (rom : Rom)
  | skip

def Call.isSearch : Call → Bool
  | search => true
  | _ => false

/-- `results` are those of `onewire_search`: the address it has given, or that it has returned
FALSE. -/
structure Session where
  master : Master
  newAddr : Rom
  results : List (Option Rom)

namespace Session

def call (t : Session) : Call → Session
  | .search =>
    let (found, newAddr, s) := t.master.onewireSearch t.newAddr
    ⟨s, newAddr, t.results ++ [if found then some newAddr else none]⟩
  | .reset => { t with master := t.master.onewireReset.2 }
  | .writeBit v => { t with master := t.master.onewireWriteBit v }
  | .readBit => { t with master := t.master.onewireReadBit.2 }
  | .write v => { t with master := t.master.onewireWrite v }
  | .read => { t with master := t.master.onewireRead.2 }
  | .select rom => { t with master := t.master.onewireSelect rom }
  | .skip => { t with master := t.master.onewireSkip }

def calls (t : Session) (cs : List Call) : Session := cs.foldl call t

@[simp] theorem calls_cons (t : Session) (c : Call) (cs : List Call) :
    t.calls (c :: cs) = (t.call c).calls cs := rfl

def begin (s : Master) (newAddr : Rom) : Session := ⟨s.onewireResetSearch, newAddr, []⟩

/-- The calls other than a search leave the search state as it is. -/
theorem call_of_not_search (t : Session) {c : Call} (hc : c.isSearch = false) :
    ∃ bus : Bus, t.call c = { t with master := { t.master with bus := bus } } ∧
      bus.chips = t.master.bus.chips ∧ bus.stuckLow = t.master.bus.stuckLow := by
  cases c with
  | search => cases hc
  | reset =>
      simp only [call, Master.onewireReset]
      split_ifs
      · exact ⟨t.master.bus, rfl, rfl, rfl⟩
      · exact ⟨t.master.bus.resetPulse, rfl, by simp, rfl⟩
  | writeBit v => exact ⟨_, rfl, Bus.chips_slot _ _, rfl⟩
  | readBit => exact ⟨_, rfl, Bus.chips_slot _ _, rfl⟩
  | write v =>
      rw [call, Master.onewireWrite_eq]
      exact ⟨_, rfl, Bus.chips_slots _ _, Bus.stuckLow_slots _ _⟩
  | read =>
      rw [call, Master.onewireRead_state]
      exact ⟨_, rfl, Bus.chips_slots _ _, Bus.stuckLow_slots _ _⟩
  | select rom =>
      rw [call, Master.onewireSelect_eq]
      exact ⟨_, rfl, Bus.chips_slots _ _, Bus.stuckLow_slots _ _⟩
  | skip =>
      rw [call, Master.onewireSkip, Master.onewireWrite_eq]
      exact ⟨_, rfl, Bus.chips_slots _ _, Bus.stuckLow_slots _ _⟩

/-- What the searches have returned so far, and where they are in the list of the devices. -/
structure Enumerating (cs : List Chip) (ls : List Rom) (n : ℕ) (t : Session) : Prop where
  results : t.results = (List.range n).map fun k => ls[k % (ls.length + 1)]?
  ready : Ready cs ls (n % (ls.length + 1)) t.master

theorem Enumerating.begin {newAddr : Rom} (hs : s.bus.stuckLow = false) :
    Enumerating s.bus.chips ls 0 (begin s newAddr) where
  results := rfl
  ready := by
    rw [Nat.zero_mod]
    exact ⟨rfl, hs, fun _ => rfl, fun j hj => absurd hj.symm j.succ_ne_zero, rfl⟩

theorem Enumerating.other {n : ℕ} {t : Session} (h : Enumerating cs ls n t) {c : Call}
    (hc : c.isSearch = false) : Enumerating cs ls n (t.call c) := by
  obtain ⟨bus, heq, hchips, hstuck⟩ := t.call_of_not_search hc
  rw [heq]
  exact
    { results := h.results
      ready :=
        { chips := hchips.trans h.ready.chips
          stuckLow := hstuck.trans h.ready.stuckLow
          first := h.ready.first
          located := h.ready.located
          lastDeviceFlag := h.ready.lastDeviceFlag } }

theorem Enumerating.search (hls : Listing romBit 64 (cs.map Chip.rom) ls)
    (hfamily : ∀ r ∈ ls, familyCode r ≠ 0) {n : ℕ} {t : Session} (h : Enumerating cs ls n t) :
    Enumerating cs ls (n + 1) (t.call .search) := by
  have hlt : n % (ls.length + 1) < ls.length + 1 := Nat.mod_lt n ls.length.succ_pos
  rcases Nat.lt_succ_iff_lt_or_eq.mp hlt with hi | hi
  · obtain ⟨r, s', heq, hindex, hready⟩ := h.ready.onewireSearch_found hls hfamily hi t.newAddr
    have hmod : (n + 1) % (ls.length + 1) = n % (ls.length + 1) + 1 := by
      rw [Nat.add_mod, Nat.mod_eq_of_lt (show 1 < ls.length + 1 by omega), Nat.mod_eq_of_lt]
      omega
    refine ⟨?_, ?_⟩
    · simp only [call, heq, h.results, List.range_succ, List.map_append, List.map_singleton]
      rw [hindex, if_pos trivial]
    · rw [hmod]
      simp only [call, heq]
      exact hready
  · obtain ⟨r, s', heq, hready⟩ := h.ready.onewireSearch_end hls hi t.newAddr
    have hmod : (n + 1) % (ls.length + 1) = 0 := by
      rw [← Nat.mod_add_mod, hi, Nat.mod_self]
    refine ⟨?_, ?_⟩
    · simp only [call, heq, h.results, List.range_succ, List.map_append, List.map_singleton]
      rw [hi, if_neg Bool.false_ne_true, List.getElem?_eq_none le_rfl]
    · rw [hmod]
      simp only [call, heq]
      exact hready

theorem Enumerating.calls (hls : Listing romBit 64 (cs.map Chip.rom) ls)
    (hfamily : ∀ r ∈ ls, familyCode r ≠ 0) (calls : List Call) {n : ℕ} {t : Session}
    (h : Enumerating cs ls n t) :
    Enumerating cs ls (n + calls.countP Call.isSearch) (t.calls calls) := by
  induction calls generalizing n t with
  | nil => exact h
  | cons c calls ih =>
      cases hc : c.isSearch with
      | false =>
          rw [List.countP_cons_of_neg (by simp [hc])]
          exact ih (h.other hc)
      | true =>
          obtain rfl : c = .search := by cases c <;> first | rfl | cases hc
          rw [List.countP_cons_of_pos hc, ← Nat.add_assoc, Nat.add_right_comm]
          exact ih (h.search hls hfamily)

end Session

/-- In a state in which every search fails and leaves such a state, none ever succeeds. -/
theorem Session.results_eq_replicate {I : Master → Prop}
    (hsearch : ∀ s newAddr, I s → ∃ r s', s.onewireSearch newAddr = (false, r, s') ∧ I s')
    (hother : ∀ s (bus : Bus), I s → bus.chips = s.bus.chips → bus.stuckLow = s.bus.stuckLow →
      I { s with bus := bus }) (calls : List Call) {t : Session} (ht : I t.master) :
    (t.calls calls).results = t.results ++ .replicate (calls.countP Call.isSearch) none := by
  induction calls generalizing t with
  | nil => exact (List.append_nil _).symm
  | cons c calls ih =>
      cases hc : c.isSearch with
      | false =>
          obtain ⟨bus, heq, hchips, hstuck⟩ := t.call_of_not_search hc
          have hI : I (t.call c).master := heq ▸ hother t.master bus ht hchips hstuck
          rw [List.countP_cons_of_neg (by simp [hc]), calls_cons, ih hI, heq]
      | true =>
          obtain rfl : c = .search := by cases c <;> first | rfl | cases hc
          obtain ⟨r, s', heq, hI⟩ := hsearch t.master t.newAddr ht
          have hcall : t.call .search = ⟨s', r, t.results ++ [none]⟩ := by
            simp [call, heq]
          rw [List.countP_cons_of_pos hc, calls_cons, hcall, ih hI, List.append_assoc,
            List.singleton_append, List.replicate_succ]

/-- Whatever else is done on the bus, the searches give every device once, in the order of the
bits of the ROM codes, then FALSE, and then begin again. -/
theorem onewireSearch_enumerates (s : Master) (hs : s.bus.stuckLow = false)
    (hfamily : ∀ c ∈ s.bus.chips, familyCode c.rom ≠ 0) :
    ∃ ls, Listing romBit 64 (s.bus.chips.map Chip.rom) ls ∧
      ∀ (newAddr : Rom) (calls : List Call),
        ((Session.begin s newAddr).calls calls).results =
          (List.range (calls.countP Call.isSearch)).map fun k => ls[k % (ls.length + 1)]? := by
  obtain ⟨ls, hls⟩ := exists_listing romBit_ext (s.bus.chips.map Chip.rom)
  refine ⟨ls, hls, fun newAddr calls => ?_⟩
  have hnonzero : ∀ r ∈ ls, familyCode r ≠ 0 := by
    intro r hr
    obtain ⟨c, hc, rfl⟩ := List.mem_map.mp ((hls.mem r).mp hr)
    exact hfamily c hc
  have hbegin : Session.Enumerating s.bus.chips ls 0 (Session.begin s newAddr) := .begin hs
  have h := hbegin.calls hls hnonzero calls
  rw [Nat.zero_add] at h
  exact h.results

def twoDevices : Bus where
  devices := [⟨⟨#v[0x28, 1, 0, 0, 0, 0, 0, 0x29], fun _ => true, fun _ _ => rfl⟩, .idle⟩,
    ⟨⟨#v[0x10, 1, 0, 0, 0, 0, 0, 0xCC], fun _ => true, fun _ _ => rfl⟩, .idle⟩]
  stuckLow := false

theorem onewireSearch_enumerates_twoDevices :
    ∃ ls, Listing romBit 64
        [#v[0x28, 1, 0, 0, 0, 0, 0, 0x29], #v[0x10, 1, 0, 0, 0, 0, 0, 0xCC]] ls ∧
      ∀ (newAddr : Rom) (calls : List Call),
        ((Session.begin ⟨twoDevices, .replicate 8 0, 0, 0, false⟩ newAddr).calls calls).results =
          (List.range (calls.countP Call.isSearch)).map fun k => ls[k % (ls.length + 1)]? :=
  onewireSearch_enumerates ⟨twoDevices, .replicate 8 0, 0, 0, false⟩ rfl (by
    intro c hc
    rcases List.mem_cons.mp hc with rfl | hc
    · decide
    · rcases List.mem_cons.mp hc with rfl | hc
      · decide
      · cases hc)

/-! ### Searches that find nothing -/

theorem romBit_of_lt_eight (r : Rom) {k : ℕ} (hk : k < 8) :
    romBit r k = (familyCode r).toBitVec.getLsbD k := by
  have hdiv : k / 8 = 0 := by omega
  have hmod : k % 8 = k := by omega
  simp [romBit, familyCode, hdiv, hmod]

/-- The family code is sent first, and 0 comes before all others. -/
theorem first_family_zero {r : Rom} (hls : Listing romBit 64 (cs.map Chip.rom) ls) (hr : r ∈ ls)
    (hzero : familyCode r = 0) {r' : Rom} (hfirst : ls[0]? = some r') : familyCode r' = 0 := by
  obtain ⟨j, hj⟩ := List.mem_iff_getElem?.mp hr
  have hbit : ∀ k < 8, romBit r k = false := by
    intro k hk
    rw [romBit_of_lt_eight r hk, hzero]
    exact BitVec.getLsbD_zero
  have hbit' : ∀ k < 8, romBit r' k = false := by
    rcases Nat.eq_zero_or_pos j with rfl | hpos
    · rw [hfirst, Option.some.injEq] at hj
      exact hj ▸ hbit
    · obtain ⟨i, _, hagree, _, hone⟩ := hls.getElem hfirst hj hpos
      intro k hk
      -- the two codes differ only after the family code
      have hki : k < i := by
        by_contra! hle
        have hi := hbit i (hle.trans_lt hk)
        rw [hone] at hi
        cases hi
      rw [hagree k hki, hbit k hk]
  apply UInt8.toBitVec_inj.mp
  apply BitVec.eq_of_getLsbD_eq
  intro k hk
  rw [← romBit_of_lt_eight r' hk, hbit' k hk]
  exact BitVec.getLsbD_zero.symm

/-- A search that comes to a family code 0 fails, and the next one begins again. -/
theorem Ready.onewireSearch_family_zero (hls : Listing romBit 64 (cs.map Chip.rom) ls)
    (h : Ready cs ls 0 s) {r : Rom} (hr : r ∈ ls) (hzero : familyCode r = 0) (newAddr : Rom) :
    ∃ r' s', s.onewireSearch newAddr = (false, r', s') ∧ Ready cs ls 0 s' := by
  obtain ⟨s', heq, hindex, hready⟩ := h.onewireSearch_eq hls (List.length_pos_of_mem hr) newAddr
  have hfirst := first_family_zero hls hr hzero hindex
  refine ⟨s'.romNo, s'.forget, ?_, hready.forget⟩
  rw [heq, Master.conclude]
  simp [hfirst]

theorem onewireSearch_stuckLow (hs : s.bus.stuckLow = true) (newAddr : Rom) :
    ∃ r s', s.onewireSearch newAddr = (false, r, s') ∧ s'.bus.stuckLow = true := by
  have hreset : s.onewireReset = (false, s) := by rw [Master.onewireReset, hs, if_pos rfl]
  rw [Master.onewireSearch_eq, hreset]
  by_cases hf : s.lastDeviceFlag = true
  · rw [if_pos hf]
    exact ⟨s.romNo, s.forget, rfl, hs⟩
  · rw [if_neg hf, if_neg Bool.false_ne_true]
    exact ⟨newAddr, s.forget, rfl, hs⟩

/-- No search ever finds a device, not even one of the others, when the line is held low or a
device has the family code 0. -/
theorem onewireSearch_finds_none (s : Master) (newAddr : Rom) (calls : List Call)
    (h : s.bus.stuckLow = true ∨ ∃ c ∈ s.bus.chips, familyCode c.rom = 0) :
    ((Session.begin s newAddr).calls calls).results =
      .replicate (calls.countP Call.isSearch) none := by
  by_cases hs : s.bus.stuckLow = true
  · apply Session.results_eq_replicate (I := fun s => s.bus.stuckLow = true)
    · exact fun s newAddr hs => onewireSearch_stuckLow hs newAddr
    · exact fun s bus hs _ hstuck => hstuck.trans hs
    · exact hs
  · obtain ⟨c, hc, hzero⟩ := h.resolve_left hs
    obtain ⟨ls, hls⟩ := exists_listing romBit_ext (s.bus.chips.map Chip.rom)
    have hmem : c.rom ∈ ls := (hls.mem _).mpr (List.mem_map.mpr ⟨c, hc, rfl⟩)
    apply Session.results_eq_replicate (I := Ready s.bus.chips ls 0)
    · exact fun s' newAddr h => h.onewireSearch_family_zero hls hmem hzero newAddr
    · exact fun s' bus h hchips hstuck =>
        ⟨hchips.trans h.chips, hstuck.trans h.stuckLow, h.first, h.located, h.lastDeviceFlag⟩
    · exact ⟨rfl, Bool.eq_false_iff.mpr hs, fun _ => rfl, fun j hj => absurd hj.symm j.succ_ne_zero, rfl⟩

/-- A device with the family code 0 next to a DS18B20. -/
def familyZero : Bus where
  devices := ⟨⟨#v[0, 1, 0, 0, 0, 0, 0, 0], fun _ => true, fun _ _ => rfl⟩, .idle⟩ ::
    twoDevices.devices.take 1
  stuckLow := false

theorem onewireSearch_finds_none_twoBuses :
    ((Session.begin ⟨⟨twoDevices.devices, true⟩, .replicate 8 0, 0, 0, false⟩
        (.replicate 8 0)).calls [.search, .search]).results = .replicate 2 none ∧
      ((Session.begin ⟨familyZero, .replicate 8 0, 0, 0, false⟩
        (.replicate 8 0)).calls [.search, .reset, .search, .search]).results =
          .replicate 3 none :=
  ⟨onewireSearch_finds_none ⟨⟨twoDevices.devices, true⟩, .replicate 8 0, 0, 0, false⟩
      (.replicate 8 0) [.search, .search] (.inl rfl),
    onewireSearch_finds_none ⟨familyZero, .replicate 8 0, 0, 0, false⟩
      (.replicate 8 0) [.search, .reset, .search, .search] (.inr ⟨_, .head _, rfl⟩)⟩

end WixelSdk.OneWire
