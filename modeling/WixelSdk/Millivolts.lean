import WixelSdk.Rounding
import Mathlib.Algebra.Order.Ring.Abs
import Mathlib.Tactic.SplitIfs

/-!
# Millivolts

The ADC leaves its result in the upper bits of a register of 16 bits. `adcConvertToMillivolts` takes
a result to millivolts with a calibration that the measured supply voltage sets.
-/

namespace WixelSdk.Adc
open Rounding

def adch (adc : UInt16) : UInt8 := (adc >>> 8).toUInt8

def adcRead (adc : UInt16) : UInt16 := if adch adc &&& 0x80 ≠ 0 then 0 else adc >>> 4

def adcReadDifferential (adc : UInt16) : Int16 := adc.toInt16 >>> 4

def adcReadVddMillivolts (adc : UInt16) : UInt16 :=
  (((adcRead adc).toUInt32 * 3750 + 1023) / 2047).toUInt16

structure Millivolts where
  millivoltCalibration : UInt16 := 3300

def adcSetMillivoltCalibration (vddMillivolts : UInt16) : Millivolts :=
  { millivoltCalibration := vddMillivolts }

namespace Millivolts

variable (s : Millivolts)

def factor : Int32 := s.millivoltCalibration.toUInt32.toInt32

def adcConvertToMillivolts (adcResult : Int16) : Int16 :=
  ((adcResult.toInt32 * s.factor + 1023) / 2047).toInt16

end Millivolts

def calibrated (vdd : UInt16) : Millivolts := adcSetMillivoltCalibration (adcReadVddMillivolts vdd)

def IsResult (a : Int16) : Prop := ∃ adc, a = (adcRead adc).toInt16 ∨ a = adcReadDifferential adc

/-- The measurement of the supply voltage stays within its types. -/
structure Measures (vdd : UInt16) : Prop where
  sum : ((adcRead vdd).toUInt32 * 3750 + 1023).toNat = (adcRead vdd).toNat * 3750 + 1023
  quotient : (adcReadVddMillivolts vdd).toNat = ((adcRead vdd).toNat * 3750 + 1023) / 2047

/-- The conversion of `a` stays within its types, rounds to the nearest millivolt, is monotone there and
turns its sign with the result. -/
structure Millivolts.Converts (s : Millivolts) (a : Int16) : Prop where
  product : (a.toInt32 * s.factor).toInt = a.toInt * s.millivoltCalibration.toNat
  sum : (a.toInt32 * s.factor + 1023).toInt = a.toInt * s.millivoltCalibration.toNat + 1023
  quotient : (s.adcConvertToMillivolts a).toInt =
    (a.toInt * s.millivoltCalibration.toNat + 1023).tdiv 2047
  nearest : (|2047 * (s.adcConvertToMillivolts a).toInt -
    a.toInt * s.millivoltCalibration.toNat|) ≤ 1023
  mono : ∀ b, IsResult b → a.toInt ≤ b.toInt →
    (s.adcConvertToMillivolts a).toInt ≤ (s.adcConvertToMillivolts b).toInt
  odd : ∀ b, IsResult b → b.toInt = -a.toInt →
    (s.adcConvertToMillivolts b).toInt = -(s.adcConvertToMillivolts a).toInt

/-! ### The results of the ADC -/

theorem lt_of_and_eq_zero {byte : UInt8} (h : byte &&& 0x80 = 0) : byte.toNat < 128 := by
  by_contra hle
  have hlt := byte.toNat_lt
  have hbit : byte.toNat.testBit 7 = true := by
    rw [Nat.testBit_eq_decide_div_mod_eq, decide_eq_true_eq]
    omega
  have hand : (byte.toNat &&& 128).testBit 7 = true := by
    rw [Nat.testBit_and, hbit]
    rfl
  rw [show byte.toNat &&& 128 = 0 from congrArg UInt8.toNat h, Nat.zero_testBit] at hand
  exact Bool.false_ne_true hand

theorem adcRead_le (adc : UInt16) : (adcRead adc).toNat ≤ 2047 := by
  unfold adcRead
  split_ifs with h
  · exact Nat.zero_le _
  · have hhigh := lt_of_and_eq_zero (not_not.mp h)
    have hadc := adc.toNat_lt
    rw [adch, UInt16.toNat_toUInt8, UInt16.toNat_shiftRight, Nat.shiftRight_eq_div_pow] at hhigh
    rw [UInt16.toNat_shiftRight, Nat.shiftRight_eq_div_pow]
    change adc.toNat / 2 ^ 8 % 2 ^ 8 < 128 at hhigh
    change adc.toNat / 2 ^ 4 ≤ 2047
    omega

theorem toInt_adcReadDifferential (adc : UInt16) :
    (adcReadDifferential adc).toInt = adc.toInt16.toInt / 16 := by
  change (adc.toInt16.toBitVec.sshiftRight 4).toInt = _
  rw [BitVec.toInt_sshiftRight, Int.shiftRight_eq_div_pow]
  rfl

theorem toInt_toInt16 {x : UInt16} (h : x.toNat ≤ 2047) : x.toInt16.toInt = x.toNat := by
  change (x.toBitVec.toInt) = _
  rw [BitVec.toInt_eq_toNat_of_lt]
  · rfl
  · change 2 * x.toNat < 2 ^ 16
    omega

theorem isResult_iff {a : Int16} : IsResult a ↔ -2048 ≤ a.toInt ∧ a.toInt ≤ 2047 := by
  constructor
  · rintro ⟨adc, rfl | rfl⟩
    · have hle := adcRead_le adc
      rw [toInt_toInt16 hle]
      omega
    · have hlow := adc.toInt16.le_toInt
      have hhigh := adc.toInt16.toInt_lt
      rw [toInt_adcReadDifferential]
      omega
  · rintro ⟨hlow, hhigh⟩
    refine ⟨(Int16.ofInt (a.toInt * 16)).toUInt16, .inr (Int16.toInt_inj.mp ?_)⟩
    rw [toInt_adcReadDifferential, Int16.toInt16_toUInt16,
      Int16.toInt_ofInt_of_le (by omega) (by omega)]
    exact (Int.mul_ediv_cancel _ (by decide)).symm

/-! ### The calibration -/

theorem toNat_vddSum (vdd : UInt16) :
    ((adcRead vdd).toUInt32 * 3750 + 1023).toNat = (adcRead vdd).toNat * 3750 + 1023 := by
  have hle := adcRead_le vdd
  have hmul : ((adcRead vdd).toUInt32 * 3750).toNat = (adcRead vdd).toNat * 3750 := by
    rw [UInt32.toNat_mul, UInt16.toNat_toUInt32]
    exact Nat.mod_eq_of_lt (by change (adcRead vdd).toNat * 3750 < 2 ^ 32; omega)
  rw [UInt32.toNat_add, hmul]
  exact Nat.mod_eq_of_lt (by change (adcRead vdd).toNat * 3750 + 1023 < 2 ^ 32; omega)

theorem toNat_adcReadVddMillivolts (vdd : UInt16) :
    (adcReadVddMillivolts vdd).toNat = ((adcRead vdd).toNat * 3750 + 1023) / 2047 := by
  have hle := adcRead_le vdd
  rw [adcReadVddMillivolts, UInt32.toNat_toUInt16, UInt32.toNat_div, toNat_vddSum]
  exact Nat.mod_eq_of_lt (by change _ / 2047 < 2 ^ 16; omega)

theorem adcReadVddMillivolts_le (vdd : UInt16) : (adcReadVddMillivolts vdd).toNat ≤ 3750 := by
  have hle := adcRead_le vdd
  rw [toNat_adcReadVddMillivolts]
  omega

theorem measures (vdd : UInt16) : Measures vdd :=
  ⟨toNat_vddSum vdd, toNat_adcReadVddMillivolts vdd⟩

theorem toInt_factor (s : Millivolts) : s.factor.toInt = s.millivoltCalibration.toNat := by
  have hlt := s.millivoltCalibration.toNat_lt
  change s.millivoltCalibration.toUInt32.toBitVec.toInt = _
  rw [BitVec.toInt_eq_toNat_of_lt]
  · rfl
  · change 2 * s.millivoltCalibration.toNat < 2 ^ 32
    omega

/-! ### The conversion -/

variable {s : Millivolts} {a b : Int16}

theorem abs_product_le (hs : s.millivoltCalibration.toNat ≤ 3750) (ha : IsResult a) :
    (|a.toInt * s.millivoltCalibration.toNat|) ≤ 7680000 := by
  obtain ⟨hlow, hhigh⟩ := isResult_iff.mp ha
  calc |a.toInt * s.millivoltCalibration.toNat|
      = |a.toInt| * s.millivoltCalibration.toNat := by rw [abs_mul, Nat.abs_cast]
    _ ≤ 2048 * 3750 :=
        mul_le_mul (abs_le.mpr ⟨hlow, by omega⟩) (by omega) (by omega) (by omega)

theorem toInt_product (hs : s.millivoltCalibration.toNat ≤ 3750) (ha : IsResult a) :
    (a.toInt32 * s.factor).toInt = a.toInt * s.millivoltCalibration.toNat := by
  have habs := abs_le.mp (abs_product_le hs ha)
  rw [Int32.toInt_mul, Int16.toInt_toInt32, toInt_factor]
  exact Int.bmod_eq_of_le (by omega) (by omega)

theorem toInt_sum (hs : s.millivoltCalibration.toNat ≤ 3750) (ha : IsResult a) :
    (a.toInt32 * s.factor + 1023).toInt = a.toInt * s.millivoltCalibration.toNat + 1023 := by
  have habs := abs_le.mp (abs_product_le hs ha)
  rw [Int32.toInt_add, toInt_product hs ha, show (1023 : Int32).toInt = 1023 from rfl]
  exact Int.bmod_eq_of_le (by omega) (by omega)

theorem toInt_adcConvertToMillivolts (hs : s.millivoltCalibration.toNat ≤ 3750)
    (ha : IsResult a) :
    (s.adcConvertToMillivolts a).toInt = roundDiv 1023 (a.toInt * s.millivoltCalibration.toNat) := by
  have habs := abs_le.mp (abs_product_le hs ha)
  have hlow : -3752 ≤ roundDiv 1023 (a.toInt * s.millivoltCalibration.toNat) :=
    le_trans (by decide) (roundDiv_mono (by decide) habs.1)
  have hhigh : roundDiv 1023 (a.toInt * s.millivoltCalibration.toNat) ≤ 3752 :=
    le_trans (roundDiv_mono (by decide) habs.2) (by decide)
  rw [Millivolts.adcConvertToMillivolts, Int32.toInt_toInt16, Int32.toInt_div, toInt_sum hs ha]
  change ((roundDiv 1023 (a.toInt * s.millivoltCalibration.toNat)).bmod (2 ^ 32)).bmod (2 ^ 16) = _
  rw [Int.bmod_eq_of_le (m := 2 ^ 32) (by omega) (by omega),
    Int.bmod_eq_of_le (by omega) (by omega)]

theorem convert_mono (hs : s.millivoltCalibration.toNat ≤ 3750) (ha : IsResult a) (hb : IsResult b)
    (hle : a.toInt ≤ b.toInt) :
    (s.adcConvertToMillivolts a).toInt ≤ (s.adcConvertToMillivolts b).toInt := by
  rw [toInt_adcConvertToMillivolts hs ha, toInt_adcConvertToMillivolts hs hb]
  exact roundDiv_mono (by decide) (mul_le_mul_of_nonneg_right hle (Int.natCast_nonneg _))

theorem roundsTo_iff (n m : ℤ) : RoundsTo 1023 n m ↔ |2047 * m - n| ≤ 1023 := by
  rw [RoundsTo, show (2 * 1023 + 1 : ℤ) = 2047 by decide]

/-- The size of the product decides about the negative results. -/
def Symmetric (n : ℤ) : Prop := n ≤ 1023 ∨ n % 2047 = 1023

/-- The readings of `adcRead` convert to the nearest millivolt, the negative results only so. -/
theorem convert_nearest_iff (hs : s.millivoltCalibration.toNat ≤ 3750) (ha : IsResult a) :
    (|2047 * (s.adcConvertToMillivolts a).toInt - a.toInt * s.millivoltCalibration.toNat|) ≤ 1023 ↔
      0 ≤ a.toInt ∨ Symmetric (|a.toInt| * s.millivoltCalibration.toNat) := by
  rw [toInt_adcConvertToMillivolts hs ha, ← roundsTo_iff]
  by_cases hneg : 0 ≤ a.toInt
  · exact iff_of_true (roundsTo_roundDiv (by decide) (mul_nonneg hneg (Int.natCast_nonneg _)))
      (.inl hneg)
  · have hsize : a.toInt * s.millivoltCalibration.toNat =
        -(|a.toInt| * s.millivoltCalibration.toNat) := by
      rw [abs_of_neg (not_le.mp hneg), neg_mul, neg_neg]
    rw [or_iff_right hneg, hsize]
    exact roundsTo_roundDiv_neg_iff (by decide) (mul_nonneg (abs_nonneg _) (Int.natCast_nonneg _))

theorem convert_odd_iff (hs : s.millivoltCalibration.toNat ≤ 3750) (ha : IsResult a)
    (hb : IsResult b) (hba : b.toInt = -a.toInt) :
    (s.adcConvertToMillivolts b).toInt = -(s.adcConvertToMillivolts a).toInt ↔
      Symmetric (|a.toInt| * s.millivoltCalibration.toNat) := by
  have hnonneg := mul_nonneg (abs_nonneg a.toInt) (Int.natCast_nonneg s.millivoltCalibration.toNat)
  have hiff := roundDiv_neg_iff (h := 1023) (by decide) hnonneg
  rw [toInt_adcConvertToMillivolts hs ha, toInt_adcConvertToMillivolts hs hb, hba, neg_mul]
  rcases le_total 0 a.toInt with hpos | hneg
  · rwa [abs_of_nonneg hpos] at hiff ⊢
  · rw [abs_of_nonpos hneg, neg_mul, neg_neg] at hiff
    rw [abs_of_nonpos hneg, neg_mul]
    exact neg_eq_iff_eq_neg.symm.trans (eq_comm.trans hiff)

theorem exists_neg_result (ha : IsResult a) (hpos : 0 ≤ a.toInt) :
    ∃ b, IsResult b ∧ b.toInt = -a.toInt := by
  obtain ⟨-, hhigh⟩ := isResult_iff.mp ha
  have hb : (Int16.ofInt (-a.toInt)).toInt = -a.toInt :=
    Int16.toInt_ofInt_of_le (by omega) (by omega)
  refine ⟨_, isResult_iff.mpr ?_, hb⟩
  rw [hb]
  omega

/-- Every measurement stays within its types. With the calibration that it sets, the conversion of a
result is right just where the product is at most 1023 or leaves the remainder 1023. -/
theorem adcConvertToMillivolts_iff {vdd : UInt16} (ha : IsResult a) :
    Measures vdd ∧ (calibrated vdd).Converts a ↔
      |a.toInt| * (adcReadVddMillivolts vdd).toNat ≤ 1023 ∨
        |a.toInt| * (adcReadVddMillivolts vdd).toNat % 2047 = 1023 := by
  have hs : (calibrated vdd).millivoltCalibration.toNat ≤ 3750 := adcReadVddMillivolts_le vdd
  rw [and_iff_right (measures vdd)]
  constructor
  · intro h
    rcases (convert_nearest_iff hs ha).mp h.nearest with hpos | hsym
    · obtain ⟨b, hb, hba⟩ := exists_neg_result ha hpos
      exact (convert_odd_iff hs ha hb hba).mp (h.odd b hb hba)
    · exact hsym
  · intro hsym
    exact {
      product := toInt_product hs ha
      sum := toInt_sum hs ha
      quotient := toInt_adcConvertToMillivolts hs ha
      nearest := (convert_nearest_iff hs ha).mpr (.inr hsym)
      mono := fun b hb => convert_mono hs ha hb
      odd := fun b hb hba => (convert_odd_iff hs ha hb hba).mpr hsym }

/-- With the supply voltage of 3299 mV the difference -215 is -346.4998 mV. -/
theorem adcConvertToMillivolts_minus_215 : Measures 28816 ∧ (calibrated 28816).Converts (-215) :=
  (adcConvertToMillivolts_iff ⟨62096, .inr (by decide)⟩).mpr (.inr (by decide))

/-- The difference -1 is -1.6 mV with the supply voltage of 3299 mV, and converts to -1; the difference
1 converts to 2. -/
theorem negative_result_rounds_up : IsResult (-1) ∧ (adcRead 28816).toNat = 1801 ∧
    ((calibrated 28816).adcConvertToMillivolts (-1)).toInt = -1 ∧
    ((calibrated 28816).adcConvertToMillivolts 1).toInt = 2 ∧
    ¬ (Measures 28816 ∧ (calibrated 28816).Converts (-1)) := by
  refine ⟨⟨0xFFF0, .inr (by decide)⟩, by decide, by decide, by decide, fun h => ?_⟩
  exact absurd h.2.nearest (by decide)

end WixelSdk.Adc
