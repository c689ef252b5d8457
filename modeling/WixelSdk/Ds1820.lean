import WixelSdk.OneWireCrc
import WixelSdk.OneWireSelect

/-!
# The thermometer

`example_onewire.c`: `setup_DS1820` takes the first device that the search gives and checks its ROM
code, `start_DS1820` starts a conversion, and `read_DS1820` reads the nine bytes of the scratchpad.
-/

namespace WixelSdk.Ds1820

open OneWire OneWireBus WordSearch

structure App where
  master : Master
  ds1820Addr : Rom
  isDS18B20 : Bool
  respondstr : Option String

namespace App

variable (a : App)

def startDS1820 : App :=
  { a with master := a.master.instruct a.ds1820Addr 0x44 }

def onewireSearch : Bool × App :=
  let (found, addr, s) := a.master.onewireSearch a.ds1820Addr
  (found, { a with master := s, ds1820Addr := addr })

/-- The address after the first search, or after the second one if the first one has failed. -/
def search : App :=
  match { a with master := a.master.onewireStart }.onewireSearch with
  | (true, a) => a
  | (false, a) => ({ a with master := a.master.onewireResetSearch }.onewireSearch).2

def check : App :=
  if onewireCrc8 (a.ds1820Addr.toList.take 7) ≠ a.ds1820Addr[7] then
    { a with respondstr := some "No OneWire devices found" }
  else if familyCode a.ds1820Addr = 0x10 then { a with isDS18B20 := false }.startDS1820
  else if familyCode a.ds1820Addr = 0x28 then { a with isDS18B20 := true }.startDS1820
  else { a with respondstr := some "No DS1820 found" }

def setupDS1820 : App := a.search.check

def dataread : List UInt8 := a.master.query a.ds1820Addr 0xBE 9

end App

/-! ### The device that is found -/

variable {a : App}

/-- The first search of all leaves the address of the first device, even if it fails because of the
family code 0. Without a device it leaves the address as it was. -/
theorem firstSearch_eq {s : Master} (hs : s.bus.stuckLow = false) {ls : List Rom}
    (hls : Listing romBit 64 (s.bus.chips.map Chip.rom) ls) (newAddr : Rom) :
    ∃ found s', s.onewireResetSearch.onewireSearch newAddr = (found, ls.head?.getD newAddr, s') ∧
      s'.bus.chips = s.bus.chips ∧ s'.bus.stuckLow = false := by
  have hready : Ready s.bus.chips ls 0 s.onewireResetSearch :=
    ⟨rfl, hs, fun _ => rfl, fun j hj => absurd hj.symm j.succ_ne_zero, rfl⟩
  cases ls with
  | nil =>
      have hchips : s.bus.chips = [] := chips_eq_nil hls
      refine ⟨false, _, onewireSearch_of_no_chips hready.stuckLow hchips rfl newAddr, ?_, hs⟩
      exact s.bus.chips_resetPulse
  | cons r ls =>
      obtain ⟨s', heq, hindex, hready'⟩ :=
        hready.onewireSearch_eq hls (List.length_pos_of_ne_nil (by simp)) newAddr
      obtain rfl : r = s'.romNo := by simpa using hindex
      rw [heq, Master.conclude]
      by_cases hzero : familyCode s'.romNo = 0
      · exact ⟨false, s'.forget, by simp [hzero], hready'.chips, hready'.stuckLow⟩
      · exact ⟨true, s', by simp [hzero], hready'.chips, hready'.stuckLow⟩

theorem search_eq (hs : a.master.bus.stuckLow = false) {ls : List Rom}
    (hls : Listing romBit 64 (a.master.bus.chips.map Chip.rom) ls) :
    ∃ s : Master, a.search = { a with master := s, ds1820Addr := ls.head?.getD a.ds1820Addr } ∧
      s.bus.chips = a.master.bus.chips ∧ s.bus.stuckLow = false := by
  obtain ⟨found, s, hfirst, hchips, hstuck⟩ := firstSearch_eq hs hls a.ds1820Addr
  have hstart : a.master.onewireStart = a.master.onewireResetSearch := rfl
  cases found with
  | true => exact ⟨s, by simp [App.search, App.onewireSearch, hstart, hfirst], hchips, hstuck⟩
  | false =>
      rw [← hchips] at hls
      obtain ⟨_, s', hsecond, hchips', hstuck'⟩ :=
        firstSearch_eq hstuck hls (ls.head?.getD a.ds1820Addr)
      have hsame : ls.head?.getD (ls.head?.getD a.ds1820Addr) = ls.head?.getD a.ds1820Addr := by
        cases ls.head? <;> rfl
      rw [hsame] at hsecond
      refine ⟨s', ?_, hchips'.trans hchips, hstuck'⟩
      simp [App.search, App.onewireSearch, hstart, hfirst, hsecond]

/-- The ROM code is that of a thermometer, and its CRC is right. -/
def Thermometer (r : Rom) : Prop :=
  onewireCrc8 (r.toList.take 7) = r[7] ∧ (familyCode r = 0x10 ∨ familyCode r = 0x28)

theorem check_of_thermometer (hr : Thermometer a.ds1820Addr) :
    a.check = { a with isDS18B20 := familyCode a.ds1820Addr == 0x28 }.startDS1820 := by
  obtain ⟨hcrc, hfamily⟩ := hr
  rw [App.check, if_neg (not_not_intro hcrc)]
  rcases hfamily with h | h
  · rw [if_pos h, h]
    rfl
  · rw [if_neg (by rw [h]; decide), if_pos h, h]
    rfl

theorem check_of_not_thermometer (hr : ¬ Thermometer a.ds1820Addr) :
    a.check =
      { a with
        respondstr :=
          if onewireCrc8 (a.ds1820Addr.toList.take 7) = a.ds1820Addr[7] then
            some "No DS1820 found"
          else some "No OneWire devices found" } := by
  rw [App.check]
  by_cases hcrc : onewireCrc8 (a.ds1820Addr.toList.take 7) = a.ds1820Addr[7]
  · have hfamily : ¬ (familyCode a.ds1820Addr = 0x10 ∨ familyCode a.ds1820Addr = 0x28) :=
      fun h => hr ⟨hcrc, h⟩
    rw [not_or] at hfamily
    rw [if_neg (not_not_intro hcrc), if_neg hfamily.1, if_neg hfamily.2, if_pos hcrc]
  · rw [if_pos hcrc, if_neg hcrc]

/-- Only the first device in the order of the search counts. If it is a thermometer, it alone is
told to start, and what is read afterwards is its scratchpad. If it is not, or there is no device,
the thermometers that come after it are not looked for. -/
theorem setupDS1820_first (a : App) (hs : a.master.bus.stuckLow = false) :
    ∃ ls, Listing romBit 64 (a.master.bus.chips.map Chip.rom) ls ∧
      ∃ r, r = ls.head?.getD a.ds1820Addr ∧ a.setupDS1820.ds1820Addr = r ∧
        (Thermometer r → a.setupDS1820.respondstr = a.respondstr ∧
          a.setupDS1820.isDS18B20 = (familyCode r == 0x28) ∧
          a.setupDS1820.master.bus.InMode (Bus.selecting r (bitsOf 0x44)) ∧
          ∀ c ∈ a.master.bus.chips, c.rom = r → (∀ c' ∈ a.master.bus.chips, c'.rom = r → c' = c) →
            ∀ bytes : List UInt8, bytes.length = 9 →
              c.reply 72 (bitsOf 0xBE) = bytes.flatMap bitsOf → a.setupDS1820.dataread = bytes) ∧
        (¬ Thermometer r → a.setupDS1820.respondstr =
          if onewireCrc8 (r.toList.take 7) = r[7] then some "No DS1820 found"
          else some "No OneWire devices found") := by
  obtain ⟨ls, hls⟩ := exists_listing romBit_ext (a.master.bus.chips.map Chip.rom)
  obtain ⟨s, hsearch, hchips, hstuck⟩ := search_eq hs hls
  refine ⟨ls, hls, _, rfl, ?_⟩
  obtain ⟨r, hr⟩ : ∃ r, r = ls.head?.getD a.ds1820Addr := ⟨_, rfl⟩
  rw [← hr] at hsearch ⊢
  rw [App.setupDS1820, hsearch]
  by_cases hthermometer : Thermometer r
  · rw [check_of_thermometer hthermometer]
    obtain ⟨hmode, hstart, hstuck'⟩ := inMode_instruct hstuck r 0x44
    have hchips' : (s.instruct r 0x44).bus.chips = a.master.bus.chips := hstart.trans hchips
    refine ⟨rfl, fun _ => ⟨rfl, rfl, ?_, ?_⟩, fun h => absurd hthermometer h⟩
    · exact hmode
    · rintro c hc rfl honly bytes hlen hsends
      rw [App.dataread, ← hlen]
      refine (query_eq hstuck' (hchips' ▸ hc) (hchips' ▸ honly) 0xBE _).trans (replyBytes_eq bytes ?_)
      rwa [hlen]
  · rw [check_of_not_thermometer hthermometer]
    exact ⟨rfl, fun h => absurd h hthermometer, fun _ => rfl⟩

/-- What a thermometer has in its scratchpad before the first conversion. -/
def scratchpad : List UInt8 := [0xAA, 0x00, 0x4B, 0x46, 0xFF, 0xFF, 0x0C, 0x10, 0x87]

/-- A DS1820 that sends its scratchpad after any command. -/
def ds1820 : Chip where
  rom := #v[0x10, 2, 0, 0, 0, 0, 0, 0x95]
  respond levels :=
    decide (levels.length < 8) || (scratchpad.flatMap bitsOf)[levels.length - 8]?.getD true
  listens _ h := by rw [decide_eq_true h, Bool.true_or]

def board : App where
  master := ⟨⟨⟨ds1820, .idle⟩ :: twoDevices.devices.take 1, false⟩, .replicate 8 0, 0, 0, false⟩
  ds1820Addr := .replicate 8 0
  isDS18B20 := true
  respondstr := none

theorem setupDS1820_first_board :
    board.setupDS1820.respondstr = none ∧ board.setupDS1820.isDS18B20 = false ∧
      board.setupDS1820.dataread = scratchpad := by
  obtain ⟨_, _, r, _, haddr, hthermometer, _⟩ := setupDS1820_first board rfl
  have hr : board.setupDS1820.ds1820Addr = ds1820.rom := by decide +kernel
  obtain rfl : ds1820.rom = r := hr.symm.trans haddr
  obtain ⟨hrespond, hkind, _, hread⟩ := hthermometer ⟨by decide +kernel, .inl rfl⟩
  refine ⟨hrespond, hkind, hread ds1820 (.head _) rfl ?_ scratchpad rfl (by decide +kernel)⟩
  intro c hc hrom
  rcases List.mem_cons.mp hc with rfl | hc
  · rfl
  · rcases List.mem_cons.mp hc with rfl | hc
    · exact absurd hrom (by decide)
    · cases hc

end WixelSdk.Ds1820
