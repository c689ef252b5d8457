import WixelSdk.OneWireBus
import Mathlib.Tactic.SplitIfs

/-!
# The 1-Wire master

`onewire.c`. A bit is written or read in one slot of the bus, and `onewire_reset` gives up when
the line does not become high. The static variables of `onewire_search` say where the last search
took 0 although there were devices with 1, so that the next search goes the other way there.
-/

namespace WixelSdk.OneWire

open OneWireBus

structure Master where
  bus : Bus
  romNo : Rom
  lastDiscrepancy : UInt8
  lastFamilyDiscrepancy : UInt8
  lastDeviceFlag : Bool

namespace Master

variable (s : Master)

/-! ### Slots and bytes -/

def onewireReset : Bool × Master :=
  if s.bus.stuckLow then (false, s)
  else (s.bus.presence, { s with bus := s.bus.resetPulse })

def onewireWriteBit (v : UInt8) : Master := { s with bus := s.bus.slot (v &&& 1 != 0) }

def onewireReadBit : UInt8 × Master :=
  (if s.bus.level true then 1 else 0, { s with bus := s.bus.slot true })

/-- The values of `bitMask` in `for (bitMask = 0x01; bitMask; bitMask <<= 1)`. -/
def bitMasks : List UInt8 := [0x01, 0x02, 0x04, 0x08, 0x10, 0x20, 0x40, 0x80]

def onewireWrite (v : UInt8) : Master :=
  bitMasks.foldl (fun s bitMask => s.onewireWriteBit (if bitMask &&& v ≠ 0 then 1 else 0)) s

/-- The loop of `onewire_read`: every bit that is read as one sets its mask in `r`. -/
def readMasks (r : UInt8) (masks : List UInt8) : UInt8 × Master :=
  masks.foldl (fun (r, s) bitMask =>
    let (bit, s) := s.onewireReadBit
    (if bit ≠ 0 then r ||| bitMask else r, s)) (r, s)

def onewireRead : UInt8 × Master := s.readMasks 0 bitMasks

def onewireSelect (rom : Rom) : Master :=
  rom.toList.foldl (fun s byte => s.onewireWrite byte) (s.onewireWrite 0x55)

def onewireSkip : Master := s.onewireWrite 0xCC

/-! ### The search -/

def onewireResetSearch : Master :=
  { s with
    lastDiscrepancy := 0
    lastDeviceFlag := false
    lastFamilyDiscrepancy := 0
    romNo := Vector.replicate 8 0 }

def onewireStart : Master := s.onewireResetSearch

/-- The next search will be like a first one. -/
def forget : Master :=
  { s with lastDiscrepancy := 0, lastDeviceFlag := false, lastFamilyDiscrepancy := 0 }

end Master

structure Loop where
  idBitNumber : UInt8
  lastZero : UInt8
  romByteNumber : UInt8
  romByteMask : UInt8
  master : Master

namespace Loop

variable (l : Loop)

def romByte : UInt8 := l.master.romNo[l.romByteNumber.toNat]?.getD 0

def searchDirection (idBit cmpIdBit : UInt8) : UInt8 :=
  if idBit ≠ cmpIdBit then idBit
  else if l.idBitNumber < l.master.lastDiscrepancy then
    if l.romByte &&& l.romByteMask > 0 then 1 else 0
  else if l.idBitNumber = l.master.lastDiscrepancy then 1 else 0

/-- Where both bits are there and 0 is picked, the position is recorded. -/
def record (idBit cmpIdBit searchDirection : UInt8) : Loop :=
  if idBit = cmpIdBit ∧ searchDirection = 0 then
    { l with
      lastZero := l.idBitNumber
      master :=
        if l.idBitNumber < 9 then { l.master with lastFamilyDiscrepancy := l.idBitNumber }
        else l.master }
  else l

def setRomBit (searchDirection : UInt8) : Loop :=
  { l with
    master :=
      { l.master with
        romNo := l.master.romNo.setIfInBounds l.romByteNumber.toNat
          (if searchDirection = 1 then l.romByte ||| l.romByteMask
          else l.romByte &&& ~~~l.romByteMask) } }

def advance : Loop :=
  let romByteMask := l.romByteMask <<< 1
  if romByteMask = 0 then
    { l with
      idBitNumber := l.idBitNumber + 1, romByteNumber := l.romByteNumber + 1, romByteMask := 1 }
  else { l with idBitNumber := l.idBitNumber + 1, romByteMask := romByteMask }

/-- The bit of this turn, from the two bits that have been read. -/
def choose (idBit cmpIdBit : UInt8) : Loop :=
  let searchDirection := l.searchDirection idBit cmpIdBit
  let l := (l.record idBit cmpIdBit searchDirection).setRomBit searchDirection
  { l with master := l.master.onewireWriteBit searchDirection }.advance

def iteration : Bool × Loop :=
  let (idBit, s) := l.master.onewireReadBit
  let (cmpIdBit, s) := s.onewireReadBit
  let l := { l with master := s }
  if idBit = 1 ∧ cmpIdBit = 1 then (true, l) else (false, l.choose idBit cmpIdBit)

/-- `do … while(rom_byte_number < 8)`, at most `turns` times. -/
def search : ℕ → Loop → Loop
  | 0, l => l
  | turns + 1, l =>
    match l.iteration with
    | (true, l) => l
    | (false, l) => if l.romByteNumber < 8 then search turns l else l

def start (s : Master) : Loop where
  idBitNumber := 1
  lastZero := 0
  romByteNumber := 0
  romByteMask := 1
  master := s

/-! #### What a turn changes -/

variable {l} {idBit cmpIdBit : UInt8}

@[simp] theorem idBitNumber_choose :
    (l.choose idBit cmpIdBit).idBitNumber = l.idBitNumber + 1 := by
  simp only [choose, record, setRomBit, advance]
  split_ifs <;> rfl

theorem lastZero_choose :
    (l.choose idBit cmpIdBit).lastZero =
      if idBit = cmpIdBit ∧ l.searchDirection idBit cmpIdBit = 0 then l.idBitNumber
      else l.lastZero := by
  simp only [choose, record, setRomBit, advance]
  split_ifs <;> rfl

theorem romByteNumber_choose :
    (l.choose idBit cmpIdBit).romByteNumber =
      if l.romByteMask <<< 1 = 0 then l.romByteNumber + 1 else l.romByteNumber := by
  simp only [choose, record, setRomBit, advance]
  split_ifs <;> rfl

theorem romByteMask_choose :
    (l.choose idBit cmpIdBit).romByteMask =
      if l.romByteMask <<< 1 = 0 then (1 : UInt8) else l.romByteMask <<< 1 := by
  simp only [choose, record, setRomBit, advance]
  split_ifs <;> rfl

theorem bus_choose :
    (l.choose idBit cmpIdBit).master.bus =
      l.master.bus.slot (l.searchDirection idBit cmpIdBit &&& 1 != 0) := by
  simp only [choose, record, setRomBit, advance]
  split_ifs <;> rfl

theorem romNo_choose :
    (l.choose idBit cmpIdBit).master.romNo =
      l.master.romNo.setIfInBounds l.romByteNumber.toNat
        (if l.searchDirection idBit cmpIdBit = 1 then l.romByte ||| l.romByteMask
        else l.romByte &&& ~~~l.romByteMask) := by
  simp only [choose, record, setRomBit, advance, romByte]
  split_ifs <;> rfl

@[simp] theorem lastDiscrepancy_choose :
    (l.choose idBit cmpIdBit).master.lastDiscrepancy = l.master.lastDiscrepancy := by
  simp only [choose, record, setRomBit, advance]
  split_ifs <;> rfl

@[simp] theorem lastDeviceFlag_choose :
    (l.choose idBit cmpIdBit).master.lastDeviceFlag = l.master.lastDeviceFlag := by
  simp only [choose, record, setRomBit, advance]
  split_ifs <;> rfl

end Loop

/-- The first byte of an address tells the kind of the device. -/
def familyCode (r : Rom) : UInt8 := r[0]

namespace Master

variable (s : Master)

def conclude (searchResult : Bool) : Bool × Rom × Master :=
  if !searchResult || familyCode s.romNo == 0 then (false, s.romNo, s.forget) else (true, s.romNo, s)

def found (lastZero : UInt8) : Master :=
  { s with
    lastDiscrepancy := lastZero
    lastDeviceFlag := lastZero == 0 || s.lastDeviceFlag }

def onewireSearch (newAddr : Rom) : Bool × Rom × Master :=
  if s.lastDeviceFlag then s.conclude false
  else
    match s.onewireReset with
    | (false, s) => (false, newAddr, s.forget)
    | (true, s) =>
      let l := (Loop.start (s.onewireWrite 0xF0)).search 64
      if l.idBitNumber < 65 then l.master.conclude false
      else (l.master.found l.lastZero).conclude true

theorem onewireSearch_eq (newAddr : Rom) :
    s.onewireSearch newAddr =
      if s.lastDeviceFlag then s.conclude false
      else if s.onewireReset.1 then
        let l := (Loop.start (s.onewireReset.2.onewireWrite 0xF0)).search 64
        if l.idBitNumber < 65 then l.master.conclude false
        else (l.master.found l.lastZero).conclude true
      else (false, newAddr, s.onewireReset.2.forget) := by
  rcases h : s.onewireReset with ⟨_ | _, s'⟩ <;> simp [onewireSearch, h]

/-! ### Slots as the bus sees them -/

theorem onewireReset_eq (hs : s.bus.stuckLow = false) :
    s.onewireReset = (s.bus.presence, { s with bus := s.bus.resetPulse }) := by
  rw [onewireReset, hs, if_neg Bool.false_ne_true]

theorem onewireWrite_eq (v : UInt8) :
    s.onewireWrite v = { s with bus := s.bus.slots (bitsOf v) } := by
  have hbits : bitsOf v = bitMasks.map fun bitMask =>
      ((if bitMask &&& v ≠ 0 then 1 else 0 : UInt8) &&& 1 != 0) := by
    have hall : ∀ v : BitVec 8, bitsOf ⟨v⟩ = bitMasks.map fun bitMask =>
        ((if bitMask &&& ⟨v⟩ ≠ 0 then 1 else 0 : UInt8) &&& 1 != 0) := by decide +kernel
    exact hall v.toBitVec
  rw [onewireWrite, hbits, Bus.slots]
  generalize bitMasks = masks
  induction masks generalizing s with
  | nil => rfl
  | cons bitMask masks ih => exact ih _

theorem onewireSelect_eq (rom : Rom) :
    s.onewireSelect rom =
      { s with bus := s.bus.slots (bitsOf 0x55 ++ rom.toList.flatMap bitsOf) } := by
  have hbytes : ∀ (bytes : List UInt8) (s : Master),
      bytes.foldl (fun s byte => s.onewireWrite byte) s =
        { s with bus := s.bus.slots (bytes.flatMap bitsOf) } := by
    intro bytes
    induction bytes with
    | nil => exact fun _ => rfl
    | cons byte bytes ih =>
        intro s
        rw [List.foldl_cons, ih, onewireWrite_eq, List.flatMap_cons, Bus.slots_append]
  rw [onewireSelect, hbytes, onewireWrite_eq, Bus.slots_append]

@[simp] theorem readMasks_nil (r : UInt8) : s.readMasks r [] = (r, s) := rfl

theorem readMasks_cons (r bitMask : UInt8) (masks : List UInt8) :
    s.readMasks r (bitMask :: masks) =
      s.onewireReadBit.2.readMasks (if s.onewireReadBit.1 ≠ 0 then r ||| bitMask else r) masks := rfl

theorem onewireRead_state : s.onewireRead.2 = { s with bus := s.bus.slots (.replicate 8 true) } := by
  have hmasks : ∀ (masks : List UInt8) (r : UInt8) (s : Master),
      (s.readMasks r masks).2 =
        { s with bus := s.bus.slots (.replicate masks.length true) } := by
    intro masks
    induction masks with
    | nil => exact fun _ _ => rfl
    | cons bitMask masks ih =>
        intro r s
        rw [readMasks_cons]
        exact ih _ s.onewireReadBit.2
  exact hmasks bitMasks 0 s

end Master

end WixelSdk.OneWire
