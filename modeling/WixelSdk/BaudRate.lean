import WixelSdk.Halving
import Mathlib.Algebra.Order.Field.Basic
import Mathlib.Algebra.Order.Field.Rat
import Mathlib.Tactic.Linarith

/-!
# Baud rates

`uartNSetBaudRate` and `spiNMasterSetFrequency` look for a mantissa of 256 to 511 and an exponent, of
which the 24 MHz clock makes the rate. A loop keeps the product within 32 bits, another brings the
mantissa into its range.
-/

namespace WixelSdk.BaudRate
open Halving

structure Registers where
  ungcr : UInt8
  unbaud : UInt8
  deriving DecidableEq, Repr

/-- The local variables at the end of both functions. -/
structure Locals where
  baud : UInt32
  baudMPlus256 : UInt32
  baudE : UInt8

/-- `while (x > limit)`, counting in `baudE`. -/
def halveWhile (limit x : UInt32) (baudE : UInt8) : UInt32 × UInt8 :=
  if limit < x then halveWhile limit (x / 2) (baudE + 1) else (x, baudE)
termination_by x.toNat
decreasing_by
  have hlt := UInt32.lt_iff_toNat_lt.mp ‹limit < x›
  change x.toNat / 2 < x.toNat
  omega

def computeBaud (baud : UInt32) : Locals :=
  let (baud, baudE) := halveWhile 495782 baud 0
  let baudMPlus256 := baud * 11 + baud * 8663 / 46875
  let (baudMPlus256, baudE) := halveWhile 0x1ff baudMPlus256 baudE
  ⟨baud, baudMPlus256, baudE⟩

namespace Registers

variable (regs : Registers)

def uartNSetBaudRate (baud : UInt32) : Registers :=
  if baud < 23 ∨ baud > 1500000 then regs
  else
    let l := computeBaud baud
    { ungcr := l.baudE, unbaud := l.baudMPlus256.toUInt8 }

def spiNMasterSetFrequency (freq : UInt32) : Registers :=
  if freq < 23 ∨ freq > 3000000 then regs
  else
    let l := computeBaud freq
    { ungcr := regs.ungcr &&& 0xE0 ||| l.baudE, unbaud := l.baudMPlus256.toUInt8 }

end Registers

def Locals.rate (l : Locals) : ℚ := l.baudMPlus256.toNat * 2 ^ l.baudE.toNat * 24000000 / 2 ^ 28

/-- The rate of one unit of the mantissa. -/
def Locals.unit (l : Locals) : ℚ := 2 ^ l.baudE.toNat * 24000000 / 2 ^ 28

/-- The computation for `b` stays within 32 bits, and its rate is not above `b` and less than a unit and
`k` below. -/
structure Computes (b : UInt32) (maxE k : ℕ) : Prop where
  mul_whole : (computeBaud b).baud.toNat * 11 < 2 ^ 32
  mul_fraction : (computeBaud b).baud.toNat * 8663 < 2 ^ 32
  add : (computeBaud b).baud.toNat * 11 + (computeBaud b).baud.toNat * 8663 / 46875 < 2 ^ 32
  mantissa : 256 ≤ (computeBaud b).baudMPlus256.toNat ∧ (computeBaud b).baudMPlus256.toNat ≤ 511
  exponent : (computeBaud b).baudE.toNat ≤ maxE
  rate_le : (computeBaud b).rate ≤ b.toNat
  lt_rate_add : (b.toNat : ℚ) < (computeBaud b).rate + (computeBaud b).unit + k

/-- The registers have the mantissa without its top bit and the exponent. -/
structure Registers.Holds (regs : Registers) (l : Locals) : Prop where
  baudM : regs.unbaud.toNat + 256 = l.baudMPlus256.toNat
  baudE : regs.ungcr &&& 0x1F = l.baudE

theorem halveWhile_eq (limit x : UInt32) (e : UInt8) :
    (halveWhile limit x e).1.toNat = x.toNat / 2 ^ halvings limit.toNat x.toNat ∧
      (halveWhile limit x e).2 = e + .ofNat (halvings limit.toNat x.toNat) := by
  fun_induction halveWhile limit x e with
  | case1 x e h ih =>
    have hhalf : (x / 2).toNat = x.toNat / 2 := rfl
    rw [hhalf] at ih
    rw [halvings_of_lt (UInt32.lt_iff_toNat_lt.mp h), Nat.pow_succ', ← Nat.div_div_eq_div_mul]
    refine ⟨ih.1, ih.2.trans ?_⟩
    rw [UInt8.ofNat_add, UInt8.add_assoc, UInt8.add_comm 1]
    rfl
  | case2 x e h =>
    rw [halvings_of_le (Nat.not_lt.mp fun hlt => h (UInt32.lt_iff_toNat_lt.mpr hlt)), Nat.pow_zero,
      Nat.div_one]
    exact ⟨rfl, (UInt8.add_zero e).symm⟩

/-! ### The bits of UNGCR -/

theorem and_or_distrib (a b c : UInt8) : (a ||| b) &&& c = a &&& c ||| b &&& c :=
  UInt8.toBitVec_inj.mp BitVec.and_or_distrib_right

theorem baudE_and {e : UInt8} (he : e.toNat < 32) : e &&& 0x1F = e := by
  refine UInt8.toNat_inj.mp ?_
  rw [UInt8.toNat_and]
  exact Nat.and_two_pow_sub_one_of_lt_two_pow (n := 5) he

theorem and_flags_and_baudE (a : UInt8) : a &&& 0xE0 &&& 0x1F = 0 := by
  rw [UInt8.and_assoc]
  exact UInt8.and_zero

theorem baudE_and_flags {e : UInt8} (he : e.toNat < 32) : e &&& 0xE0 = 0 := by
  rw [← baudE_and he, UInt8.and_assoc]
  exact UInt8.and_zero

/-! ### The computation -/

def firstHalvings (b : ℕ) : ℕ := halvings 495782 b

def secondHalvings (b : ℕ) : ℕ := halvings 511 (524288 * (b / 2 ^ firstHalvings b) / 46875)

theorem baudMPlus256_toNat {x : UInt32} (hx : x.toNat ≤ 495782) :
    (x * 11 + x * 8663 / 46875).toNat = 524288 * x.toNat / 46875 := by
  have hsplit : 524288 * x.toNat = x.toNat * 8663 + x.toNat * 11 * 46875 := by ring
  have hmul : (x * 11).toNat = x.toNat * 11 := by
    rw [UInt32.toNat_mul]
    exact Nat.mod_eq_of_lt (by change x.toNat * 11 < 2 ^ 32; omega)
  have hfraction : (x * 8663).toNat = x.toNat * 8663 := by
    rw [UInt32.toNat_mul]
    exact Nat.mod_eq_of_lt (by change x.toNat * 8663 < 2 ^ 32; omega)
  have hdiv : (x * 8663 / 46875).toNat = x.toNat * 8663 / 46875 := by
    rw [UInt32.toNat_div, hfraction]
    rfl
  rw [UInt32.toNat_add, hmul, hdiv, hsplit, Nat.add_mul_div_right _ _ (by decide), Nat.add_comm]
  exact Nat.mod_eq_of_lt (by omega)

theorem computeBaud_baud (b : UInt32) :
    (computeBaud b).baud.toNat = b.toNat / 2 ^ firstHalvings b.toNat :=
  (halveWhile_eq 495782 b 0).1

theorem computeBaud_baud_le (b : UInt32) : (computeBaud b).baud.toNat ≤ 495782 := by
  rw [computeBaud_baud]
  exact div_halvings_le 495782 b.toNat

theorem computeBaud_baudMPlus256 (b : UInt32) :
    (computeBaud b).baudMPlus256.toNat =
      scaled 524288 46875 (secondHalvings b.toNat) (firstHalvings b.toNat) b.toNat := by
  have hfirst := baudMPlus256_toNat (computeBaud_baud_le b)
  have hsecond := (halveWhile_eq 0x1ff ((computeBaud b).baud * 11 +
    (computeBaud b).baud * 8663 / 46875) (halveWhile 495782 b 0).2).1
  rw [hfirst, computeBaud_baud] at hsecond
  exact hsecond

theorem computeBaud_baudE (b : UInt32) :
    (computeBaud b).baudE = .ofNat (secondHalvings b.toNat + firstHalvings b.toNat) := by
  have hfirst := (halveWhile_eq 495782 b 0).2
  have hsecond := (halveWhile_eq 0x1ff ((computeBaud b).baud * 11 +
    (computeBaud b).baud * 8663 / 46875) (halveWhile 495782 b 0).2).2
  rw [baudMPlus256_toNat (computeBaud_baud_le b), computeBaud_baud] at hsecond
  rw [UInt8.ofNat_add, UInt8.add_comm]
  refine hsecond.trans ?_
  rw [hfirst, UInt8.zero_add]
  rfl

variable {b : UInt32} {B maxE J : ℕ}

theorem le_baud (hb : 23 ≤ b.toNat) : 23 ≤ b.toNat / 2 ^ firstHalvings b.toNat := by
  unfold firstHalvings
  by_cases h : b.toNat ≤ 495782
  · rwa [halvings_of_le h, Nat.pow_zero, Nat.div_one]
  · exact le_trans (by decide) (@le_div_halvings 495782 b.toNat (by omega))

theorem mantissa_of_le (hb : 23 ≤ b.toNat) :
    256 ≤ (computeBaud b).baudMPlus256.toNat ∧ (computeBaud b).baudMPlus256.toNat ≤ 511 := by
  have hbaud := le_baud hb
  rw [computeBaud_baudMPlus256]
  refine ⟨@le_div_halvings 511 _ ?_, div_halvings_le 511 _⟩
  rw [Nat.le_div_iff_mul_le (by decide)]
  omega

/-- The mantissa of 256 or more leaves the exponent so much room. -/
theorem halvings_add_le (hb : 23 ≤ b.toNat) (hB : b.toNat ≤ B)
    (hE : 524288 * B ≤ 256 * 2 ^ maxE * 46875) :
    secondHalvings b.toNat + firstHalvings b.toNat ≤ maxE := by
  have hmantissa := (mantissa_of_le hb).1
  rw [computeBaud_baudMPlus256] at hmantissa
  have hpow : 256 * 2 ^ (secondHalvings b.toNat + firstHalvings b.toNat) * 46875 ≤
      256 * 2 ^ maxE * 46875 := by
    calc 256 * 2 ^ (secondHalvings b.toNat + firstHalvings b.toNat) * 46875
        ≤ scaled 524288 46875 (secondHalvings b.toNat) (firstHalvings b.toNat) b.toNat *
            2 ^ (secondHalvings b.toNat + firstHalvings b.toNat) * 46875 :=
          Nat.mul_le_mul_right _ (Nat.mul_le_mul_right _ hmantissa)
      _ ≤ 524288 * b.toNat := scaled_mul_le _ _ _ _ _
      _ ≤ 524288 * B := Nat.mul_le_mul_left _ hB
      _ ≤ 256 * 2 ^ maxE * 46875 := hE
  refine (Nat.pow_le_pow_iff_right (by decide : 1 < 2)).mp ?_
  omega

theorem computes_of (hb : 23 ≤ b.toNat) (hB : b.toNat ≤ B) (hJ : B / 2 ^ J ≤ 495782)
    (hE : 524288 * B ≤ 256 * 2 ^ maxE * 46875) (hmax : maxE < 32) :
    Computes b maxE (2 ^ J - 1) := by
  have hbaud := computeBaud_baud_le b
  have hhalvings := halvings_add_le hb hB hE
  have hexponent : (computeBaud b).baudE.toNat =
      secondHalvings b.toNat + firstHalvings b.toNat := by
    rw [computeBaud_baudE]
    exact Nat.mod_eq_of_lt (by omega)
  have hfirst : 2 ^ firstHalvings b.toNat - 1 ≤ 2 ^ J - 1 := by
    refine Nat.sub_le_sub_right (Nat.pow_le_pow_right (by decide) (halvings_le ?_)) 1
    exact le_trans (Nat.div_le_div_right hB) hJ
  have hlow := scaled_mul_le 524288 46875 (secondHalvings b.toNat) (firstHalvings b.toNat) b.toNat
  have hhigh := lt_scaled_succ_mul (p := 524288) (q := 46875) (i := secondHalvings b.toNat)
    (j := firstHalvings b.toNat) (b := b.toNat) (by decide)
  rw [← computeBaud_baudMPlus256, ← hexponent] at hlow hhigh
  have hhigh := Nat.lt_of_lt_of_le hhigh (Nat.add_le_add_left (Nat.mul_le_mul_left 524288 hfirst) _)
  refine ⟨by omega, by omega, by omega, mantissa_of_le hb, hexponent.trans_le hhalvings, ?_, ?_⟩
  · have hrate : (524288 : ℚ) * (computeBaud b).rate = (computeBaud b).baudMPlus256.toNat *
        2 ^ (computeBaud b).baudE.toNat * 46875 := by
      unfold Locals.rate
      ring
    have hcast : ((computeBaud b).baudMPlus256.toNat : ℚ) * 2 ^ (computeBaud b).baudE.toNat * 46875 ≤
        524288 * b.toNat := by exact_mod_cast hlow
    linarith
  · have hrate : (524288 : ℚ) * ((computeBaud b).rate + (computeBaud b).unit) =
        ((computeBaud b).baudMPlus256.toNat + 1) * 2 ^ (computeBaud b).baudE.toNat * 46875 := by
      unfold Locals.rate Locals.unit
      ring
    have hcast : (524288 : ℚ) * b.toNat < ((computeBaud b).baudMPlus256.toNat + 1) *
        2 ^ (computeBaud b).baudE.toNat * 46875 + 524288 * (2 ^ J - 1 : ℕ) := by
      exact_mod_cast hhigh
    linarith

theorem holds_of_computes {regs : Registers} {k : ℕ} (h : Computes b maxE k)
    (hbaudM : regs.unbaud = (computeBaud b).baudMPlus256.toUInt8)
    (hbaudE : regs.ungcr &&& 0x1F = (computeBaud b).baudE) : regs.Holds (computeBaud b) := by
  refine ⟨?_, hbaudE⟩
  have hmantissa := h.mantissa
  rw [hbaudM, UInt32.toNat_toUInt8]
  omega

/-- For every accepted rate both functions stay within 32 bits, end with a mantissa and an exponent in
range, and make a rate at most `b` and less than a unit and 3 or 7 below it; for the other rates they
leave the registers alone. -/
theorem setBaudRate_spec (regs : Registers) (b : UInt32) :
    (23 ≤ b ∧ b ≤ 1500000 →
      Computes b 16 3 ∧ (regs.uartNSetBaudRate b).Holds (computeBaud b)) ∧
    (23 ≤ b ∧ b ≤ 3000000 →
      Computes b 17 7 ∧ (regs.spiNMasterSetFrequency b).Holds (computeBaud b) ∧
        (regs.spiNMasterSetFrequency b).ungcr &&& 0xE0 = regs.ungcr &&& 0xE0) ∧
    (¬ (23 ≤ b ∧ b ≤ 1500000) → regs.uartNSetBaudRate b = regs) ∧
    (¬ (23 ≤ b ∧ b ≤ 3000000) → regs.spiNMasterSetFrequency b = regs) := by
  have hrange : ∀ {top : UInt32}, ¬ (23 ≤ b ∧ b ≤ top) ↔ b < 23 ∨ b > top := by
    intro top
    rw [not_and_or, UInt32.not_le, UInt32.not_le]
  refine ⟨fun h => ?_, fun h => ?_, fun h => if_pos (hrange.mp h), fun h => if_pos (hrange.mp h)⟩
  · have hcomputes : Computes b 16 3 :=
      computes_of (B := 1500000) (J := 2) (UInt32.le_iff_toNat_le.mp h.1)
        (UInt32.le_iff_toNat_le.mp h.2) (by decide) (by decide) (by decide)
    have hlt : (computeBaud b).baudE.toNat < 32 := Nat.lt_of_le_of_lt hcomputes.exponent (by decide)
    rw [Registers.uartNSetBaudRate, if_neg fun hout => hrange.mpr hout h]
    exact ⟨hcomputes, holds_of_computes hcomputes rfl (baudE_and hlt)⟩
  · have hcomputes : Computes b 17 7 :=
      computes_of (B := 3000000) (J := 3) (UInt32.le_iff_toNat_le.mp h.1)
        (UInt32.le_iff_toNat_le.mp h.2) (by decide) (by decide) (by decide)
    have hlt : (computeBaud b).baudE.toNat < 32 := Nat.lt_of_le_of_lt hcomputes.exponent (by decide)
    rw [Registers.spiNMasterSetFrequency, if_neg fun hout => hrange.mpr hout h]
    refine ⟨hcomputes, holds_of_computes hcomputes rfl ?_, ?_⟩
    · rw [and_or_distrib, and_flags_and_baudE, UInt8.zero_or, baudE_and hlt]
    · rw [and_or_distrib, UInt8.and_assoc, UInt8.and_self, baudE_and_flags hlt, UInt8.or_zero]

/-- 115200 baud and 3 MHz, and the rate 22. -/
theorem setBaudRate_spec_115200 : Computes 115200 16 3 ∧ Computes 3000000 17 7 ∧
    (Registers.uartNSetBaudRate ⟨0xE0, 7⟩ 22 = ⟨0xE0, 7⟩) ∧
    Registers.spiNMasterSetFrequency ⟨0xE0, 7⟩ 22 = ⟨0xE0, 7⟩ :=
  ⟨((setBaudRate_spec ⟨0xE0, 7⟩ 115200).1 (by decide)).1,
    ((setBaudRate_spec ⟨0xE0, 7⟩ 3000000).2.1 (by decide)).1,
    (setBaudRate_spec ⟨0xE0, 7⟩ 22).2.2.1 (by decide),
    (setBaudRate_spec ⟨0xE0, 7⟩ 22).2.2.2 (by decide)⟩

end WixelSdk.BaudRate
