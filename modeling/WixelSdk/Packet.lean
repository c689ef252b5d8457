import Mathlib.Algebra.Group.Nat.Defs
import Mathlib.Logic.Function.Basic
import Mathlib.Tactic.IntervalCases

/-!
# The packet library

`packet.c` takes packets of five bytes off the radio: six leading ones, an ID of 5 bits, the
coordinates of 10 bits each and a rotation of 9 bits. `read1byte` and `read2byte` read a structure
of bits from such a packet.
-/

namespace WixelSdk.Packet

abbrev qTupleSize : ℕ := 5

instance : NeZero qTupleSize := ⟨Nat.succ_ne_zero 4⟩

structure QTuple where
  bytes : Fin qTupleSize → UInt8

def checkHeader (header : UInt8) : Bool := header &&& 0xFC == 0xFC

namespace QTuple

/-- `bytes[k]`, for the readers, which reach beyond the last byte only with a length of zero. -/
def byteAt (mypacket : QTuple) (k : ℕ) : ℕ :=
  if h : k < qTupleSize then (mypacket.bytes ⟨k, h⟩).toNat else 0

def store (mypacket : QTuple) (k : Fin qTupleSize) (byte : UInt8) : QTuple :=
  ⟨Function.update mypacket.bytes k byte⟩

def read1byte (pos length : ℕ) (mypacket : QTuple) : UInt8 :=
  if length > 8 then 0
  else if pos + length > qTupleSize * 8 then 0
  else
    let relPos := pos % 8
    let temp := mypacket.byteAt (pos >>> 3)
    if 8 - relPos ≥ length then
      .ofNat (temp >>> (8 - (relPos + length)) &&& 0xFF >>> (8 - length))
    else
      let temp1 := mypacket.byteAt ((pos >>> 3) + 1)
      .ofNat ((temp &&& 0xFF >>> relPos) <<< (length - (8 - relPos)) |||
        temp1 >>> (16 - length - relPos))

def read2byte (pos length : ℕ) (mypacket : QTuple) : UInt16 :=
  if length > 16 ∨ length ≤ 8 then 0
  else if pos + length > qTupleSize * 8 then 0
  else
    let relPos8 := pos % 8
    let temp := mypacket.byteAt (pos >>> 3)
    let temp1 := mypacket.byteAt ((pos >>> 3) + 1)
    if length + relPos8 ≤ 16 then
      .ofNat ((temp &&& 0xFF >>> relPos8) <<< (length - 8 + relPos8) |||
        temp1 >>> (16 - length - relPos8))
    else
      let temp2 := mypacket.byteAt ((pos >>> 3) + 2)
      .ofNat ((temp &&& 0xFF >>> relPos8) <<< (length - 8 + relPos8) |||
        temp1 <<< (length + relPos8 - 16) ||| temp2 >>> (8 - (pos + length) % 8))

def readID (mypacket : QTuple) : UInt8 := mypacket.read1byte 6 5

def readY (mypacket : QTuple) : UInt16 := mypacket.read2byte 11 10

def readX (mypacket : QTuple) : UInt16 := mypacket.read2byte 21 10

def readR (mypacket : QTuple) : UInt16 := mypacket.read2byte 31 9

theorem byteAt_lt (mypacket : QTuple) (k : ℕ) : mypacket.byteAt k < 2 ^ 8 := by
  unfold byteAt
  split_ifs with h
  · exact (mypacket.bytes ⟨k, h⟩).toNat_lt
  · exact Nat.two_pow_pos 8

theorem mask_lt {k : ℕ} (hk : k ≤ 8) : 0xFF >>> k < 2 ^ (8 - k) := by
  interval_cases k <;> decide

theorem shiftRight_lt {x m n k : ℕ} (hx : x < 2 ^ m) (hm : m ≤ n + k) : x >>> k < 2 ^ n := by
  rw [Nat.shiftRight_eq_div_pow]
  refine Nat.div_lt_of_lt_mul (Nat.lt_of_lt_of_le hx ?_)
  rw [← Nat.pow_add, Nat.add_comm]
  exact Nat.pow_le_pow_right (by decide) hm

theorem shiftLeft_lt {x m n k : ℕ} (hx : x < 2 ^ m) (hm : m + k = n) : x <<< k < 2 ^ n := by
  rw [Nat.shiftLeft_eq, ← hm, Nat.pow_add]
  exact Nat.mul_lt_mul_of_pos_right hx (Nat.two_pow_pos k)

/-- A structure of `length` bits. -/
theorem read1byte_lt (mypacket : QTuple) (pos length : ℕ) :
    (mypacket.read1byte pos length).toNat < 2 ^ length := by
  have hrel : pos % 8 < 8 := Nat.mod_lt _ (by decide)
  unfold read1byte
  split_ifs with hlong hout
  · exact Nat.two_pow_pos length
  · exact Nat.two_pow_pos length
  · dsimp only
    split_ifs with hone
    · refine Nat.lt_of_le_of_lt (Nat.mod_le _ _) (Nat.lt_of_le_of_lt Nat.and_le_right ?_)
      exact Nat.lt_of_lt_of_le (mask_lt (Nat.sub_le 8 length))
        (Nat.pow_le_pow_right (by decide) (by omega))
    · refine Nat.lt_of_le_of_lt (Nat.mod_le _ _) (Nat.or_lt_two_pow ?_ ?_)
      · exact shiftLeft_lt (Nat.lt_of_le_of_lt Nat.and_le_right (mask_lt (by omega))) (by omega)
      · exact shiftRight_lt (mypacket.byteAt_lt _) (by omega)

theorem readID_lt (mypacket : QTuple) : mypacket.readID.toNat < 32 :=
  mypacket.read1byte_lt 6 5

theorem read2byte_lt (mypacket : QTuple) (pos length : ℕ) :
    (mypacket.read2byte pos length).toNat < 2 ^ length := by
  have hrel : pos % 8 < 8 := Nat.mod_lt _ (by decide)
  have htop : ∀ {k : ℕ}, pos % 8 + length = 8 + k →
      (mypacket.byteAt (pos >>> 3) &&& 0xFF >>> (pos % 8)) <<< k < 2 ^ length := fun {k} hk =>
    shiftLeft_lt (Nat.lt_of_le_of_lt Nat.and_le_right (mask_lt (Nat.le_of_lt hrel))) (by omega)
  unfold read2byte
  split_ifs with hlength hout
  · exact Nat.two_pow_pos length
  · exact Nat.two_pow_pos length
  · dsimp only
    split_ifs with htwo
    · refine Nat.lt_of_le_of_lt (Nat.mod_le _ _) (Nat.or_lt_two_pow (htop (by omega)) ?_)
      exact shiftRight_lt (mypacket.byteAt_lt _) (by omega)
    · refine Nat.lt_of_le_of_lt (Nat.mod_le _ _)
        (Nat.or_lt_two_pow (Nat.or_lt_two_pow (htop (by omega)) ?_) ?_)
      · exact Nat.lt_of_lt_of_le (shiftLeft_lt (mypacket.byteAt_lt _) rfl)
          (Nat.pow_le_pow_right (by decide) (by omega))
      · exact shiftRight_lt (mypacket.byteAt_lt _) (by omega)

theorem readY_lt (mypacket : QTuple) : mypacket.readY.toNat < 1024 := mypacket.read2byte_lt 11 10

theorem readX_lt (mypacket : QTuple) : mypacket.readX.toNat < 1024 := mypacket.read2byte_lt 21 10

end QTuple

end WixelSdk.Packet
