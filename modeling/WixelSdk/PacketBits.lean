import WixelSdk.Packet
import Mathlib.Tactic.NormNum.Basic

/-!
# The bits of a packet

The readers of `packet.c` in the types of the code: a variable of type `uint8` or `uint16` holds its
value modulo a power of two, and the bytes of a packet are of type `char`, which is signed. What the
C code promotes to `int` is never negative. `bits` are the bits of the packet in the order of the
stream, the top bit of the first byte first.
-/

namespace WixelSdk.Packet

/-- What `mypacket->bytes` points to; the packet has the first five of these bytes. -/
abbrev Memory := ℕ → Int8

namespace Memory

variable (bytes : Memory)

def read1byte (pos length : UInt8) : UInt8 :=
  if length.toNat > 8 then 0
  else if pos.toNat + length.toNat > qTupleSize * 8 then 0
  else
    let relPos := pos.toNat % 8
    let temp : UInt8 := (bytes (pos.toNat >>> 3)).toUInt8
    if 8 - relPos ≥ length.toNat then
      let temp : UInt8 := .ofNat (temp.toNat >>> (8 - (relPos + length.toNat)))
      .ofNat (temp.toNat &&& 0xFF >>> (8 - length.toNat))
    else
      let temp : UInt8 := .ofNat (temp.toNat &&& 0xFF >>> relPos)
      let temp1 : UInt8 := (bytes ((pos.toNat >>> 3) + 1)).toUInt8
      let temp : UInt8 := .ofNat (temp.toNat <<< (length.toNat - (8 - relPos)))
      let temp1 : UInt8 := .ofNat (temp1.toNat >>> (16 - length.toNat - relPos))
      .ofNat (temp.toNat ||| temp1.toNat)

/-- A `char` goes to a `uint16` with its sign. -/
def read2byte (pos length : UInt8) : UInt16 :=
  if length.toNat > 16 ∨ length.toNat ≤ 8 then 0
  else if pos.toNat + length.toNat > qTupleSize * 8 then 0
  else
    let relPos8 := pos.toNat % 8
    let temp : UInt16 := (bytes (pos.toNat >>> 3)).toInt16.toUInt16
    if length.toNat + relPos8 ≤ 16 then
      let temp1 : UInt8 := (bytes ((pos.toNat >>> 3) + 1)).toUInt8
      let temp : UInt16 := .ofNat (temp.toNat &&& 0xFF >>> relPos8)
      let temp : UInt16 := .ofNat (temp.toNat <<< (length.toNat - 8 + relPos8))
      let temp1 : UInt8 := .ofNat (temp1.toNat >>> (16 - length.toNat - relPos8))
      .ofNat (temp.toNat ||| temp1.toNat)
    else
      let temp1 : UInt16 := (bytes ((pos.toNat >>> 3) + 1)).toInt16.toUInt16
      let temp1 : UInt16 := .ofNat (temp1.toNat &&& 0xFF)
      let temp2 : UInt8 := (bytes ((pos.toNat >>> 3) + 2)).toUInt8
      let temp2 : UInt8 := .ofNat (temp2.toNat &&& 0xFF)
      let temp : UInt16 := .ofNat (temp.toNat &&& 0xFF >>> relPos8)
      let temp : UInt16 := .ofNat (temp.toNat <<< (length.toNat - 8 + relPos8))
      let temp1 : UInt16 := .ofNat (temp1.toNat <<< (length.toNat + relPos8 - 16))
      let temp2 : UInt8 := .ofNat (temp2.toNat >>> (8 - (pos.toNat + length.toNat) % 8))
      .ofNat (temp.toNat ||| temp1.toNat ||| temp2.toNat)

def readID : UInt8 := bytes.read1byte 6 5

def readY : UInt16 := bytes.read2byte 11 10

def readX : UInt16 := bytes.read2byte 21 10

def readR : UInt16 := bytes.read2byte 31 9

/-! ### Bits -/

def byte (k : ℕ) : ℕ := (bytes k).toUInt8.toNat

/-- Bit 0 is the top bit of byte 0. -/
def bitAt (k : ℕ) : Bool := (bytes.byte (k / 8)).testBit (7 - k % 8)

def bits (pos length : ℕ) : List Bool := (List.range length).map fun j => bytes.bitAt (pos + j)

/-- `n` has the bits from `pos` on, the last of them as its lowest bit. -/
def Reads (pos length n : ℕ) : Prop :=
  ∀ j, n.testBit j = (decide (j < length) && bytes.bitAt (pos + (length - 1 - j)))

variable {bytes} {k r pos length n : ℕ}

theorem toNat_toUInt8 (bytes : Memory) (k : ℕ) : (bytes k).toUInt8.toNat = bytes.byte k := rfl

theorem byte_lt (bytes : Memory) (k : ℕ) : bytes.byte k < 2 ^ 8 := (bytes k).toUInt8.toNat_lt

theorem testBit_byte (bytes : Memory) (k i : ℕ) :
    (bytes.byte k).testBit i = (decide (i < 8) && bytes.bitAt (8 * k + (7 - i))) := by
  by_cases hi : i < 8
  · have hplace : (8 * k + (7 - i)) / 8 = k := by omega
    have hbit : 7 - (8 * k + (7 - i)) % 8 = i := by omega
    rw [bitAt, hplace, hbit, decide_eq_true hi, Bool.true_and]
  · rw [decide_eq_false hi, Bool.false_and]
    refine Nat.testBit_lt_two_pow (Nat.lt_of_lt_of_le (bytes.byte_lt k) ?_)
    exact Nat.pow_le_pow_right (by decide) (Nat.le_of_not_lt hi)

theorem testBit_mask (r i : ℕ) : (0xFF >>> r).testBit i = decide (r + i < 8) := by
  rw [Nat.testBit_shiftRight]
  exact Nat.testBit_two_pow_sub_one 8 (r + i)

theorem reads_one_byte (bytes : Memory) (k r length : ℕ) (hr : r + length ≤ 8) :
    bytes.Reads (8 * k + r) length
      (bytes.byte k >>> (8 - (r + length)) &&& 0xFF >>> (8 - length)) := by
  intro j
  rw [Nat.testBit_and, Nat.testBit_shiftRight, testBit_byte, testBit_mask]
  by_cases hj : j < length
  · have hmask : 8 - length + j < 8 := by omega
    have hin : 8 - (r + length) + j < 8 := by omega
    have hplace : 8 * k + (7 - (8 - (r + length) + j)) = 8 * k + r + (length - 1 - j) := by omega
    simp only [hmask, hin, hj, hplace, decide_true, Bool.true_and, Bool.and_true]
  · have hmask : ¬ 8 - length + j < 8 := by omega
    simp only [hmask, hj, decide_false, Bool.false_and, Bool.and_false]

theorem reads_two_bytes (bytes : Memory) (k r length : ℕ) (hr : r < 8)
    (hlow : 8 ≤ r + length) (hhigh : r + length ≤ 16) : bytes.Reads (8 * k + r) length
      ((bytes.byte k &&& 0xFF >>> r) <<< (r + length - 8) |||
        bytes.byte (k + 1) >>> (16 - length - r)) := by
  intro j
  rw [Nat.testBit_or, Nat.testBit_shiftLeft, Nat.testBit_and, testBit_byte, testBit_mask,
    Nat.testBit_shiftRight, testBit_byte]
  by_cases hup : r + length - 8 ≤ j
  · have hlast : ¬ 16 - length - r + j < 8 := by omega
    by_cases hj : j < length
    · have hmask : r + (j - (r + length - 8)) < 8 := by omega
      have hin : j - (r + length - 8) < 8 := by omega
      have hplace : 8 * k + (7 - (j - (r + length - 8))) = 8 * k + r + (length - 1 - j) := by omega
      simp only [hup, hlast, hj, hmask, hin, hplace, decide_true, decide_false,
        Bool.true_and, Bool.and_true, Bool.false_and, Bool.or_false]
    · have hmask : ¬ r + (j - (r + length - 8)) < 8 := by omega
      simp only [hlast, hj, hmask, decide_false, Bool.false_and, Bool.and_false, Bool.or_false]
  · have hj : j < length := by omega
    have hin : 16 - length - r + j < 8 := by omega
    have hplace : 8 * (k + 1) + (7 - (16 - length - r + j)) = 8 * k + r + (length - 1 - j) := by
      omega
    simp only [hup, hj, hin, hplace, decide_true, decide_false, Bool.true_and,
      Bool.false_and, Bool.false_or]

theorem reads_three_bytes (bytes : Memory) (k r length : ℕ) (hr : r < 8)
    (hlow : 16 < r + length) (hlen : length ≤ 16) : bytes.Reads (8 * k + r) length
      ((bytes.byte k &&& 0xFF >>> r) <<< (length - 8 + r) |||
        bytes.byte (k + 1) <<< (length + r - 16) |||
        bytes.byte (k + 2) >>> (8 - (length + r - 16))) := by
  intro j
  rw [Nat.testBit_or, Nat.testBit_or, Nat.testBit_shiftLeft, Nat.testBit_and, testBit_byte,
    testBit_mask, Nat.testBit_shiftLeft, testBit_byte, Nat.testBit_shiftRight, testBit_byte]
  by_cases hlast : j < length + r - 16
  · have hfirst : ¬ length - 8 + r ≤ j := by omega
    have hmiddle : ¬ length + r - 16 ≤ j := Nat.not_le.mpr hlast
    have hj : j < length := by omega
    have hin : 8 - (length + r - 16) + j < 8 := by omega
    have hplace : 8 * (k + 2) + (7 - (8 - (length + r - 16) + j)) =
        8 * k + r + (length - 1 - j) := by omega
    simp only [hfirst, hmiddle, hj, hin, hplace, decide_true, decide_false,
      Bool.true_and, Bool.false_and, Bool.false_or]
  · have hmiddle : length + r - 16 ≤ j := Nat.le_of_not_lt hlast
    have hout : ¬ 8 - (length + r - 16) + j < 8 := by omega
    by_cases hfirst : length - 8 + r ≤ j
    · have hout' : ¬ j - (length + r - 16) < 8 := by omega
      by_cases hj : j < length
      · have hmask : r + (j - (length - 8 + r)) < 8 := by omega
        have hin : j - (length - 8 + r) < 8 := by omega
        have hplace : 8 * k + (7 - (j - (length - 8 + r))) = 8 * k + r + (length - 1 - j) := by
          omega
        simp only [hfirst, hout, hout', hj, hmask, hin, hplace, decide_true,
          decide_false, Bool.true_and, Bool.and_true, Bool.false_and, Bool.and_false,
          Bool.or_false]
      · have hmask : ¬ r + (j - (length - 8 + r)) < 8 := by omega
        simp only [hout, hout', hj, hmask, decide_false, Bool.false_and, Bool.and_false,
          Bool.or_false]
    · have hj : j < length := by omega
      have hin : j - (length + r - 16) < 8 := by omega
      have hplace : 8 * (k + 1) + (7 - (j - (length + r - 16))) = 8 * k + r + (length - 1 - j) := by
        omega
      simp only [hfirst, hmiddle, hout, hj, hin, hplace, decide_true, decide_false,
        Bool.true_and, Bool.false_and, Bool.false_or, Bool.or_false]

/-! ### The readers -/

/-- The number whose binary digits are the given bits, most significant first. -/
def value (digits : List Bool) : ℕ := (BitVec.ofBoolListBE digits).toNat

/-- The last `length` binary digits of `n`, most significant first. -/
def digits (length n : ℕ) : List Bool :=
  (List.range length).map fun j => n.testBit (length - 1 - j)

theorem length_bits (bytes : Memory) (pos length : ℕ) : (bytes.bits pos length).length = length := by
  rw [bits, List.length_map, List.length_range]

theorem Reads.eq_value (h : bytes.Reads pos length n) : n = value (bytes.bits pos length) := by
  refine Nat.eq_of_testBit_eq fun j => ?_
  rw [h j, value, ← BitVec.getLsbD, BitVec.getLsbD_ofBoolListBE, length_bits]
  by_cases hj : j < length
  · have hin : length - 1 - j < length := by omega
    rw [bits, List.getD_eq_getElem?_getD, List.getElem?_map, List.getElem?_range hin]
    rfl
  · rw [decide_eq_false hj, Bool.false_and, Bool.false_and]

theorem Reads.digits (h : bytes.Reads pos length n) :
    digits length n = bytes.bits pos length := by
  refine List.map_congr_left fun j hj => ?_
  have hlt := List.mem_range.mp hj
  have hin : length - 1 - j < length := by omega
  have hplace : length - 1 - (length - 1 - j) = j := by omega
  rw [h, decide_eq_true hin, Bool.true_and, hplace]

theorem Reads.lt (h : bytes.Reads pos length n) : n < 2 ^ length := by
  refine Nat.lt_pow_two_of_testBit n fun j hj => ?_
  rw [h, decide_eq_false (Nat.not_lt.mpr hj), Bool.false_and]

theorem signed_and_mask (c : Int8) (hr : r ≤ 8) :
    c.toInt16.toUInt16.toNat &&& 0xFF >>> r = c.toUInt8.toNat &&& 0xFF >>> r := by
  have hall : ∀ r ≤ 8, ∀ v : BitVec 8,
      (Int8.ofBitVec v).toInt16.toUInt16.toNat &&& 0xFF >>> r =
        (Int8.ofBitVec v).toUInt8.toNat &&& 0xFF >>> r := by decide +kernel
  exact hall r hr c.toBitVec

theorem toNat_ofNat8 {x : ℕ} (hx : x < 2 ^ 8) : (UInt8.ofNat x).toNat = x :=
  UInt8.toNat_ofNat_of_lt hx

theorem toNat_ofNat16 {x : ℕ} (hx : x < 2 ^ 16) : (UInt16.ofNat x).toNat = x :=
  UInt16.toNat_ofNat_of_lt hx

theorem shiftRight_byte_lt (bytes : Memory) (k s : ℕ) : bytes.byte k >>> s < 2 ^ 8 :=
  Nat.lt_of_le_of_lt (Nat.shiftRight_le _ _) (bytes.byte_lt k)

theorem and_mask_lt (x : ℕ) (hr : r ≤ 8) : x &&& 0xFF >>> r < 2 ^ (8 - r) :=
  Nat.lt_of_le_of_lt Nat.and_le_right (QTuple.mask_lt hr)

theorem and_byte (bytes : Memory) (k : ℕ) : bytes.byte k &&& 0xFF = bytes.byte k :=
  (Nat.and_two_pow_sub_one_eq_mod _ 8).trans (Nat.mod_eq_of_lt (bytes.byte_lt k))

theorem pow_two_le {m n : ℕ} (h : m ≤ n) : 2 ^ m ≤ 2 ^ n := Nat.pow_le_pow_right (by decide) h

/-- A place in the packet: byte and bit. -/
theorem pos_eq (pos : ℕ) : 8 * (pos >>> 3) + pos % 8 = pos := by
  rw [Nat.shiftRight_eq_div_pow]
  exact Nat.div_add_mod pos 8

theorem reads_read1byte (bytes : Memory) (pos length : UInt8) (hlen : length.toNat ≤ 8)
    (hin : pos.toNat + length.toNat ≤ qTupleSize * 8) :
    bytes.Reads pos.toNat length.toNat (bytes.read1byte pos length).toNat := by
  have hr : pos.toNat % 8 < 8 := Nat.mod_lt _ (by decide)
  unfold read1byte
  rw [if_neg (Nat.not_lt.mpr hlen), if_neg (Nat.not_lt.mpr hin)]
  simp only [toNat_toUInt8]
  split_ifs with hone
  · have hreads := bytes.reads_one_byte (pos.toNat >>> 3) (pos.toNat % 8) length.toNat (by omega)
    rw [pos_eq] at hreads
    rw [toNat_ofNat8 (bytes.shiftRight_byte_lt _ _), toNat_ofNat8]
    · exact hreads
    · exact Nat.lt_of_lt_of_le (and_mask_lt _ (Nat.sub_le 8 _)) (pow_two_le (Nat.sub_le 8 _))
  · have hreads := bytes.reads_two_bytes (pos.toNat >>> 3) (pos.toNat % 8) length.toNat hr
      (by omega) (by omega)
    rw [pos_eq] at hreads
    have hmask := and_mask_lt (bytes.byte (pos.toNat >>> 3)) (Nat.le_of_lt hr)
    have hshift : length.toNat - (8 - pos.toNat % 8) = pos.toNat % 8 + length.toNat - 8 := by omega
    have hhigh : (bytes.byte (pos.toNat >>> 3) &&& 0xFF >>> (pos.toNat % 8)) <<<
        (pos.toNat % 8 + length.toNat - 8) < 2 ^ 8 := by
      refine Nat.lt_of_lt_of_le (QTuple.shiftLeft_lt hmask rfl) (pow_two_le ?_)
      omega
    have hlow := bytes.shiftRight_byte_lt (pos.toNat >>> 3 + 1) (16 - length.toNat - pos.toNat % 8)
    rw [toNat_ofNat8 (Nat.lt_of_lt_of_le hmask (pow_two_le (Nat.sub_le 8 _))), hshift,
      toNat_ofNat8 hhigh, toNat_ofNat8 hlow, toNat_ofNat8 (Nat.or_lt_two_pow hhigh hlow)]
    exact hreads

theorem last_place {pos length : ℕ} (hspan : 16 < length + pos % 8) (hlen : length ≤ 16) :
    (pos + length) % 8 = length + pos % 8 - 16 := by
  have hr : pos % 8 < 8 := Nat.mod_lt _ (by decide)
  rw [← Nat.mod_add_mod]
  omega

/-- The first byte of a `uint16`, masked and shifted. -/
theorem toNat_high (bytes : Memory) (k : ℕ) {s : ℕ} (hr : r < 8) (hs : 8 - r + s ≤ 16) :
    (UInt16.ofNat ((UInt16.ofNat ((bytes k).toInt16.toUInt16.toNat &&& 0xFF >>> r)).toNat <<<
      s)).toNat = (bytes.byte k &&& 0xFF >>> r) <<< s ∧
    (bytes.byte k &&& 0xFF >>> r) <<< s < 2 ^ 16 := by
  have hmask := and_mask_lt (bytes.byte k) (Nat.le_of_lt hr)
  have hshift : (bytes.byte k &&& 0xFF >>> r) <<< s < 2 ^ 16 :=
    Nat.lt_of_lt_of_le (QTuple.shiftLeft_lt hmask rfl) (pow_two_le hs)
  have hword : bytes.byte k &&& 0xFF >>> r < 2 ^ 16 :=
    Nat.lt_of_lt_of_le hmask (pow_two_le (by omega))
  rw [signed_and_mask _ (Nat.le_of_lt hr), toNat_toUInt8, toNat_ofNat16 hword, toNat_ofNat16 hshift]
  exact ⟨rfl, hshift⟩

theorem reads_read2byte (bytes : Memory) (pos length : UInt8) (hlow : 8 < length.toNat)
    (hlen : length.toNat ≤ 16)
    (hin : pos.toNat + length.toNat ≤ qTupleSize * 8) :
    bytes.Reads pos.toNat length.toNat (bytes.read2byte pos length).toNat := by
  have hr : pos.toNat % 8 < 8 := Nat.mod_lt _ (by decide)
  have hlength : ¬ (length.toNat > 16 ∨ length.toNat ≤ 8) := by omega
  have hshift : length.toNat - 8 + pos.toNat % 8 = pos.toNat % 8 + length.toNat - 8 := by omega
  unfold read2byte
  rw [if_neg hlength, if_neg (Nat.not_lt.mpr hin)]
  dsimp only
  split_ifs with htwo
  · have hreads := bytes.reads_two_bytes (pos.toNat >>> 3) (pos.toNat % 8) length.toNat hr
      (by omega) (by omega)
    rw [pos_eq] at hreads
    obtain ⟨htemp, hhigh⟩ := bytes.toNat_high (pos.toNat >>> 3)
      (s := pos.toNat % 8 + length.toNat - 8) hr (by omega)
    have hbyte := bytes.shiftRight_byte_lt (pos.toNat >>> 3 + 1) (16 - length.toNat - pos.toNat % 8)
    have hword := Nat.lt_of_lt_of_le hbyte (pow_two_le (show 8 ≤ 16 by decide))
    rw [toNat_toUInt8, hshift, htemp, toNat_ofNat8 hbyte,
      toNat_ofNat16 (Nat.or_lt_two_pow hhigh hword)]
    exact hreads
  · have hreads := bytes.reads_three_bytes (pos.toNat >>> 3) (pos.toNat % 8) length.toNat hr
      (by omega) hlen
    rw [pos_eq] at hreads
    obtain ⟨htemp, hhigh⟩ := bytes.toNat_high (pos.toNat >>> 3)
      (s := length.toNat - 8 + pos.toNat % 8) hr (by omega)
    obtain ⟨htemp1, hmiddle⟩ := bytes.toNat_high (pos.toNat >>> 3 + 1) (r := 0)
      (s := length.toNat + pos.toNat % 8 - 16) (by decide) (by omega)
    rw [Nat.shiftRight_zero, and_byte] at htemp1 hmiddle
    have hbyte := bytes.shiftRight_byte_lt (pos.toNat >>> 3 + 2)
      (8 - (length.toNat + pos.toNat % 8 - 16))
    have hword := Nat.lt_of_lt_of_le hbyte (pow_two_le (show 8 ≤ 16 by decide))
    rw [htemp, htemp1, last_place (by omega) hlen, toNat_toUInt8, and_byte,
      toNat_ofNat8 (bytes.byte_lt _), toNat_ofNat8 hbyte,
      toNat_ofNat16 (Nat.or_lt_two_pow (Nat.or_lt_two_pow hhigh hmiddle) hword)]
    exact hreads

theorem toNat_read1byte (bytes : Memory) (pos length : UInt8) :
    (bytes.read1byte pos length).toNat =
      if 1 ≤ length.toNat ∧ length.toNat ≤ 8 ∧ pos.toNat + length.toNat ≤ qTupleSize * 8 then
        value (bytes.bits pos.toNat length.toNat)
      else 0 := by
  by_cases hin : length.toNat ≤ 8 ∧ pos.toNat + length.toNat ≤ qTupleSize * 8
  · have hreads := bytes.reads_read1byte pos length hin.1 hin.2
    split_ifs with hdomain
    · exact hreads.eq_value
    · have hzero : length.toNat = 0 := Nat.eq_zero_of_not_pos fun hpos => hdomain ⟨hpos, hin⟩
      have hlt := hreads.lt
      rw [hzero] at hlt
      exact Nat.lt_one_iff.mp hlt
  · rw [if_neg fun hdomain => hin hdomain.2]
    unfold read1byte
    split_ifs with hlong hout
    · rfl
    · rfl
    · exact absurd ⟨Nat.not_lt.mp hlong, Nat.not_lt.mp hout⟩ hin

theorem toNat_read2byte (bytes : Memory) (pos length : UInt8) :
    (bytes.read2byte pos length).toNat =
      if 9 ≤ length.toNat ∧ length.toNat ≤ 16 ∧ pos.toNat + length.toNat ≤ qTupleSize * 8 then
        value (bytes.bits pos.toNat length.toNat)
      else 0 := by
  split_ifs with hdomain
  · exact (bytes.reads_read2byte pos length hdomain.1 hdomain.2.1 hdomain.2.2).eq_value
  · unfold read2byte
    split_ifs with hlong hout
    · rfl
    · rfl
    · obtain ⟨hlen, hlow⟩ := not_or.mp hlong
      exact absurd ⟨Nat.not_le.mp hlow, Nat.not_lt.mp hlen, Nat.not_lt.mp hout⟩ hdomain

/-! ### The packet as a whole -/

theorem bits_append (bytes : Memory) (pos m n : ℕ) :
    bytes.bits pos m ++ bytes.bits (pos + m) n = bytes.bits pos (m + n) := by
  simp only [bits, List.range_add, List.map_append, List.map_map, Function.comp_def,
    Nat.add_assoc]

/-- The six header bits and the fields, as strings of bits one after the other. -/
def concatenation (bytes : Memory) : List Bool :=
  bytes.bits 0 6 ++ digits 5 bytes.readID.toNat ++ digits 10 bytes.readY.toNat ++
    digits 10 bytes.readX.toNat ++ digits 9 bytes.readR.toNat

theorem concatenation_eq_bits (bytes : Memory) : bytes.concatenation = bytes.bits 0 40 := by
  have hID := (bytes.reads_read1byte 6 5 (by decide) (by decide)).digits
  have hY := (bytes.reads_read2byte 11 10 (by decide) (by decide) (by decide)).digits
  have hX := (bytes.reads_read2byte 21 10 (by decide) (by decide) (by decide)).digits
  have hR := (bytes.reads_read2byte 31 9 (by decide) (by decide) (by decide)).digits
  calc bytes.concatenation
      = bytes.bits 0 6 ++ bytes.bits 6 5 ++ bytes.bits 11 10 ++ bytes.bits 21 10 ++
          bytes.bits 31 9 := by
        rw [concatenation]
        exact congrArg₂ _ (congrArg₂ _ (congrArg₂ _ (congrArg _ hID) hY) hX) hR
    _ = bytes.bits 0 40 := by
        rw [bits_append bytes 0 6 5, bits_append bytes 0 11 10, bits_append bytes 0 21 10,
          bits_append bytes 0 31 9]

def packet (bytes : Memory) : QTuple := ⟨fun k => (bytes k.val).toUInt8⟩

variable {other : Memory}

theorem bits_congr (h : bytes.packet = other.packet) {pos length : ℕ} (hin : pos + length ≤ 40) :
    bytes.bits pos length = other.bits pos length := by
  refine List.map_congr_left fun j hj => ?_
  have hlt := List.mem_range.mp hj
  have hbyte : (pos + j) / 8 < qTupleSize := Nat.div_lt_of_lt_mul (by change _ < 40; omega)
  have hsame : bytes.packet.bytes ⟨_, hbyte⟩ = other.packet.bytes ⟨_, hbyte⟩ := by rw [h]
  exact congrArg (fun b : UInt8 => b.toNat.testBit (7 - (pos + j) % 8)) hsame

theorem packet_eq_of_bits (h : bytes.bits 0 40 = other.bits 0 40) :
    bytes.packet = other.packet := by
  have hbit : ∀ q < 40, bytes.bitAt q = other.bitAt q := fun q hq => by
    have hget := congrArg (fun l => l[q]?) h
    simp only [bits, List.getElem?_map, List.getElem?_range hq, Option.map_some, Nat.zero_add] at hget
    exact Option.some.inj hget
  refine congrArg QTuple.mk (funext fun k => UInt8.toNat_inj.mp ?_)
  refine Nat.eq_of_testBit_eq fun i => ?_
  change (bytes.byte k.val).testBit i = (other.byte k.val).testBit i
  have hk : k.val < 5 := k.isLt
  rw [testBit_byte, testBit_byte]
  by_cases hi : i < 8
  · rw [hbit _ (by omega)]
  · rw [decide_eq_false hi, Bool.false_and, Bool.false_and]

def fields (bytes : Memory) : List Bool × UInt8 × UInt16 × UInt16 × UInt16 :=
  (bytes.bits 0 6, bytes.readID, bytes.readY, bytes.readX, bytes.readR)

theorem read1byte_congr (h : bytes.packet = other.packet) (pos length : UInt8) :
    bytes.read1byte pos length = other.read1byte pos length := by
  refine UInt8.toNat_inj.mp ?_
  rw [toNat_read1byte, toNat_read1byte]
  split_ifs with hdomain
  · rw [bits_congr h hdomain.2.2]
  · rfl

theorem read2byte_congr (h : bytes.packet = other.packet) (pos length : UInt8) :
    bytes.read2byte pos length = other.read2byte pos length := by
  refine UInt16.toNat_inj.mp ?_
  rw [toNat_read2byte, toNat_read2byte]
  split_ifs with hdomain
  · rw [bits_congr h hdomain.2.2]
  · rfl

theorem fields_eq_iff : bytes.fields = other.fields ↔ bytes.packet = other.packet := by
  constructor
  · intro h
    obtain ⟨hheader, hID, hY, hX, hR⟩ : bytes.bits 0 6 = other.bits 0 6 ∧
        bytes.readID = other.readID ∧ bytes.readY = other.readY ∧ bytes.readX = other.readX ∧
        bytes.readR = other.readR := by
      simpa only [fields, Prod.mk.injEq] using h
    refine packet_eq_of_bits ?_
    rw [← concatenation_eq_bits, ← concatenation_eq_bits, concatenation, concatenation, hheader, hID,
      hY, hX, hR]
  · intro h
    rw [fields, fields, bits_congr h (by decide), readID, readY, readX, readR,
      read1byte_congr h, read2byte_congr h, read2byte_congr h, read2byte_congr h]
    rfl

/-- The readers return the bits that they are asked for as a number, and 0 for other arguments; the
header bits and the fields make up the packet. -/
theorem readers_agree_with_bits (bytes : Memory) :
    (∀ pos length, (bytes.read1byte pos length).toNat =
      if 1 ≤ length.toNat ∧ length.toNat ≤ 8 ∧ pos.toNat + length.toNat ≤ qTupleSize * 8 then
        value (bytes.bits pos.toNat length.toNat)
      else 0) ∧
    (∀ pos length, (bytes.read2byte pos length).toNat =
      if 9 ≤ length.toNat ∧ length.toNat ≤ 16 ∧ pos.toNat + length.toNat ≤ qTupleSize * 8 then
        value (bytes.bits pos.toNat length.toNat)
      else 0) ∧
    bytes.concatenation = bytes.bits 0 40 ∧
    ∀ other : Memory, bytes.fields = other.fields ↔ bytes.packet = other.packet :=
  ⟨bytes.toNat_read1byte, bytes.toNat_read2byte, bytes.concatenation_eq_bits,
    fun _ => fields_eq_iff⟩

/-! ### The readers of `Packet` -/

theorem byteAt_packet (bytes : Memory) (hk : k < qTupleSize) :
    bytes.packet.byteAt k = bytes.byte k := dif_pos hk

theorem Reads.unique {m : ℕ} (h : bytes.Reads pos length n) (h' : bytes.Reads pos length m) :
    n = m := h.eq_value.trans h'.eq_value.symm

/-- The computation on natural numbers agrees with the one in the types of the code. -/
theorem read1byte_packet (bytes : Memory) (pos length : UInt8) :
    bytes.packet.read1byte pos.toNat length.toNat = bytes.read1byte pos length := by
  have hr : pos.toNat % 8 < 8 := Nat.mod_lt _ (by decide)
  have hk := pos_eq pos.toNat
  by_cases hlong : length.toNat > 8
  · rw [QTuple.read1byte, Memory.read1byte, if_pos hlong, if_pos hlong]
  by_cases hout : pos.toNat + length.toNat > qTupleSize * 8
  · rw [QTuple.read1byte, Memory.read1byte, if_neg hlong, if_neg hlong, if_pos hout, if_pos hout]
  refine UInt8.toNat_inj.mp (Reads.unique ?_
    (bytes.reads_read1byte pos length (Nat.not_lt.mp hlong) (Nat.not_lt.mp hout)))
  have hin : pos.toNat + length.toNat ≤ 40 := Nat.not_lt.mp hout
  have hlen := pow_two_le (Nat.not_lt.mp hlong)
  rw [QTuple.read1byte, if_neg hlong, if_neg hout]
  dsimp only
  by_cases hzero : length.toNat = 0
  · rw [if_pos (by omega), hzero]
    intro j
    simp
  have hfirst : pos.toNat >>> 3 < qTupleSize := by
    change _ < 5
    omega
  rw [byteAt_packet bytes hfirst]
  split_ifs with hone
  · have hreads := bytes.reads_one_byte (pos.toNat >>> 3) (pos.toNat % 8) length.toNat (by omega)
    rw [toNat_ofNat8 (Nat.lt_of_lt_of_le hreads.lt hlen)]
    rw [pos_eq] at hreads
    exact hreads
  · have hsecond : pos.toNat >>> 3 + 1 < qTupleSize := by
      change _ < 5
      omega
    have hreads := bytes.reads_two_bytes (pos.toNat >>> 3) (pos.toNat % 8) length.toNat hr
      (by omega) (by omega)
    have hshift : length.toNat - (8 - pos.toNat % 8) = pos.toNat % 8 + length.toNat - 8 := by omega
    rw [byteAt_packet bytes hsecond, hshift, toNat_ofNat8 (Nat.lt_of_lt_of_le hreads.lt hlen)]
    rw [pos_eq] at hreads
    exact hreads

theorem read2byte_packet (bytes : Memory) (pos length : UInt8) :
    bytes.packet.read2byte pos.toNat length.toNat = bytes.read2byte pos length := by
  have hr : pos.toNat % 8 < 8 := Nat.mod_lt _ (by decide)
  have hk := pos_eq pos.toNat
  by_cases hlong : length.toNat > 16 ∨ length.toNat ≤ 8
  · rw [QTuple.read2byte, Memory.read2byte, if_pos hlong, if_pos hlong]
  by_cases hout : pos.toNat + length.toNat > qTupleSize * 8
  · rw [QTuple.read2byte, Memory.read2byte, if_neg hlong, if_neg hlong, if_pos hout, if_pos hout]
  obtain ⟨hlen, hlow⟩ := not_or.mp hlong
  refine UInt16.toNat_inj.mp (Reads.unique ?_
    (bytes.reads_read2byte pos length (Nat.not_le.mp hlow) (Nat.not_lt.mp hlen)
      (Nat.not_lt.mp hout)))
  have hin : pos.toNat + length.toNat ≤ 40 := Nat.not_lt.mp hout
  have hsecond : pos.toNat >>> 3 + 1 < qTupleSize := by
    change _ < 5
    omega
  have hfirst := Nat.lt_of_succ_lt hsecond
  have hword := pow_two_le (Nat.not_lt.mp hlen)
  have hshift : length.toNat - 8 + pos.toNat % 8 = pos.toNat % 8 + length.toNat - 8 := by omega
  rw [QTuple.read2byte, if_neg hlong, if_neg hout, byteAt_packet bytes hfirst,
    byteAt_packet bytes hsecond]
  dsimp only
  split_ifs with htwo
  · have hreads := bytes.reads_two_bytes (pos.toNat >>> 3) (pos.toNat % 8) length.toNat hr
      (by omega) (by omega)
    rw [hshift, toNat_ofNat16 (Nat.lt_of_lt_of_le hreads.lt hword)]
    rw [pos_eq] at hreads
    exact hreads
  · have hthird : pos.toNat >>> 3 + 2 < qTupleSize := by
      change _ < 5
      omega
    have hreads := bytes.reads_three_bytes (pos.toNat >>> 3) (pos.toNat % 8) length.toNat hr
      (by omega) (Nat.not_lt.mp hlen)
    rw [byteAt_packet bytes hthird, last_place (by omega) (Nat.not_lt.mp hlen),
      toNat_ofNat16 (Nat.lt_of_lt_of_le hreads.lt hword)]
    rw [pos_eq] at hreads
    exact hreads

end Memory
end WixelSdk.Packet
