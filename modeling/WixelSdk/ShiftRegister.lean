import Mathlib.Data.List.Basic
import Mathlib.Data.Nat.Bits
import Mathlib.Tactic.IntervalCases

/-!
# Division by a shift register

A register of `w` bits takes the bits of a message one after the other: it is shifted to the right,
and the polynomial `g` is added when the bit that falls out differs from the bit that comes in.
What it holds afterwards is the remainder of the message, which is linear in the message, so that
two messages have the same remainder exactly if their difference has the remainder 0. A difference
is noticed if it is a burst of at most `w` bits (`run_burst_ne_zero`), if it has one or three bits,
or if it has two bits that are not a period of the register apart (`four_le_distance`).
-/

namespace WixelSdk.ShiftRegister

variable {w : ℕ}

def shift (g r : BitVec w) (b : Bool) : BitVec w :=
  if r.getLsbD 0 ^^ b then (r >>> 1) ^^^ g else r >>> 1

def run (g r : BitVec w) (bs : List Bool) : BitVec w := bs.foldl (shift g) r

def difference (bs bs' : List Bool) : List Bool := List.zipWith (· ^^ ·) bs bs'

/-- In how many bits two messages differ. -/
def distance (bs bs' : List Bool) : ℕ := (difference bs bs').count true

section Run

variable {g r r' : BitVec w} {b b' : Bool} {bs bs' : List Bool}

@[simp] theorem run_nil : run g r [] = r := rfl

@[simp] theorem run_cons : run g r (b :: bs) = run g (shift g r b) bs := rfl

theorem run_append : run g r (bs ++ bs') = run g (run g r bs) bs' := List.foldl_append

theorem shift_xor : shift g (r ^^^ r') (b ^^ b') = shift g r b ^^^ shift g r' b' := by
  have hcancel : ∀ x y : BitVec w, x ^^^ g ^^^ (y ^^^ g) = x ^^^ y := by
    intro x y
    rw [BitVec.xor_assoc, ← BitVec.xor_assoc g, BitVec.xor_comm g y, BitVec.xor_assoc y,
      BitVec.xor_self, BitVec.xor_zero]
  have hright : ∀ x y : BitVec w, x ^^^ y ^^^ g = x ^^^ g ^^^ y := by
    intro x y
    rw [BitVec.xor_assoc, BitVec.xor_comm y, ← BitVec.xor_assoc]
  simp only [shift, BitVec.getLsbD_xor, BitVec.ushiftRight_xor_distrib]
  cases r.getLsbD 0 <;> cases r'.getLsbD 0 <;> cases b <;> cases b' <;>
    simp [hcancel, hright, BitVec.xor_assoc, BitVec.xor_comm g]

theorem run_xor (h : bs.length = bs'.length) :
    run g (r ^^^ r') (difference bs bs') = run g r bs ^^^ run g r' bs' := by
  induction bs generalizing bs' r r' with
  | nil =>
      obtain rfl : bs' = [] := List.eq_nil_of_length_eq_zero h.symm
      rfl
  | cons b bs ih =>
      cases bs' with
      | nil => cases h
      | cons b' bs' =>
          rw [difference, List.zipWith_cons_cons, run_cons, shift_xor]
          exact ih (Nat.succ.inj h)

/-- Two messages have the same remainder if their difference has the remainder 0. -/
theorem run_eq_iff (h : bs.length = bs'.length) :
    run g 0#w bs = run g 0#w bs' ↔ run g 0#w (difference bs bs') = 0#w := by
  have hxor : run g (0#w ^^^ 0#w) (difference bs bs') = run g 0#w bs ^^^ run g 0#w bs' := run_xor h
  rw [BitVec.xor_self] at hxor
  rw [hxor, BitVec.xor_eq_zero_iff]

theorem run_zero (n : ℕ) : run g 0#w (.replicate n false) = 0#w := by
  induction n with
  | zero => rfl
  | succ n ih =>
      have hshift : shift g 0#w false = 0#w := by simp [shift]
      rw [List.replicate_succ, run_cons, hshift, ih]

/-- A register that is not 0 does not become 0 by itself. -/
theorem shift_false_ne_zero (hg : g.msb = true) (hr : r ≠ 0#w) : shift g r false ≠ 0#w := by
  intro h
  apply hr
  have hmsb : (r >>> 1).msb = false := by
    rw [BitVec.msb_ushiftRight]
    simp
  rw [shift, Bool.xor_false] at h
  split_ifs at h with hlow
  · have hnot : ((r >>> 1) ^^^ g).msb = true := by rw [BitVec.msb_xor, hmsb, hg]; rfl
    rw [h, BitVec.msb_zero] at hnot
    cases hnot
  · apply BitVec.eq_of_getLsbD_eq
    intro i hi
    cases i with
    | zero => simpa using hlow
    | succ i =>
        have hbit := congrArg (fun x : BitVec w => x.getLsbD i) h
        simpa [BitVec.getLsbD_ushiftRight, Nat.add_comm] using hbit

theorem run_replicate_ne_zero (hg : g.msb = true) (hr : r ≠ 0#w) (n : ℕ) :
    run g r (.replicate n false) ≠ 0#w := by
  induction n generalizing r with
  | zero => exact hr
  | succ n ih =>
      rw [List.replicate_succ, run_cons]
      exact ih (shift_false_ne_zero hg hr)

end Run

/-! ### Messages that fit into the register -/

/-- The register with the bits of `bs`, the first one lowest. -/
def load : List Bool → BitVec w
  | [] => 0#w
  | b :: bs => load bs <<< 1 ||| (BitVec.ofBool b).setWidth w

section Load

variable {g r : BitVec w} {b : Bool} {bs : List Bool}

theorem getLsbD_load {i : ℕ} (hi : i < w) : (load bs : BitVec w).getLsbD i = bs.getD i false := by
  induction bs generalizing i with
  | nil => simp [load]
  | cons b bs ih =>
      cases i with
      | zero => simp [load, hi]
      | succ i =>
          rw [load, BitVec.getLsbD_or, BitVec.getLsbD_shiftLeft, BitVec.getLsbD_setWidth,
            BitVec.getLsbD_ofBool, Nat.add_sub_cancel, ih (Nat.lt_of_succ_lt hi),
            List.getD_cons_succ]
          simp [hi]

theorem load_cons_shift (h : bs.length < w) : (load (b :: bs) : BitVec w) >>> 1 = load bs := by
  apply BitVec.eq_of_getLsbD_eq
  intro i hi
  rw [BitVec.getLsbD_ushiftRight, Nat.add_comm, getLsbD_load hi]
  rcases Nat.lt_or_ge (i + 1) w with hlt | hge
  · rw [getLsbD_load hlt, List.getD_cons_succ]
  · rw [BitVec.getLsbD_of_ge _ _ hge, List.getD_eq_getElem?_getD, List.getElem?_eq_none (by omega),
      Option.getD_none]

/-- Taking the bits of `bs` is the same as having them in the register and taking nothing. -/
theorem run_load (h : bs.length ≤ w) :
    run g (r ^^^ load bs) (.replicate bs.length false) = run g r bs := by
  induction bs generalizing r with
  | nil => simp [load]
  | cons b bs ih =>
      rw [List.length_cons] at h
      have hlow : (load (b :: bs) : BitVec w).getLsbD 0 = b := by
        rw [getLsbD_load (by omega), List.getD_cons_zero]
      have hshift : shift g (r ^^^ load (b :: bs)) false = shift g r b ^^^ load bs := by
        rw [shift, BitVec.getLsbD_xor, hlow, BitVec.ushiftRight_xor_distrib,
          load_cons_shift (by omega), Bool.xor_false, shift]
        cases r.getLsbD 0 ^^ b
        · rfl
        · simp only [if_true]
          rw [BitVec.xor_assoc, BitVec.xor_comm (load bs), ← BitVec.xor_assoc]
      rw [List.length_cons, List.replicate_succ, run_cons, hshift, ih (by omega), run_cons]

theorem load_ne_zero (h : bs.length ≤ w) (hbs : true ∈ bs) : (load bs : BitVec w) ≠ 0#w := by
  intro hzero
  obtain ⟨i, hi, htrue⟩ := List.mem_iff_getElem.mp hbs
  have hbit : (load bs : BitVec w).getLsbD i = bs.getD i false :=
    getLsbD_load (Nat.lt_of_lt_of_le hi h)
  rw [hzero, List.getD_eq_getElem?_getD, List.getElem?_eq_getElem hi, htrue] at hbit
  simp at hbit

/-- A burst of at most `w` bits is noticed. -/
theorem run_burst_ne_zero (hg : g.msb = true) (h : bs.length ≤ w) (hbs : true ∈ bs) (m n : ℕ) :
    run g 0#w (.replicate m false ++ bs ++ .replicate n false) ≠ 0#w := by
  rw [run_append, run_append, run_zero]
  apply run_replicate_ne_zero hg
  rw [← run_load h, BitVec.zero_xor]
  exact run_replicate_ne_zero hg (load_ne_zero h hbs) _

end Load

/-! ### Parity -/

/-- The sum of the lowest `n` bits. -/
def parity (x : BitVec w) : ℕ → Bool
  | 0 => false
  | n + 1 => x.getLsbD n ^^ parity x n

section Parity

variable {g r : BitVec w}

theorem parity_xor (x y : BitVec w) (n : ℕ) : parity (x ^^^ y) n = (parity x n ^^ parity y n) := by
  induction n with
  | zero => rfl
  | succ n ih =>
      rw [parity, parity, parity, ih, BitVec.getLsbD_xor]
      cases x.getLsbD n <;> cases y.getLsbD n <;> simp

theorem parity_ushiftRight (x : BitVec w) (n : ℕ) :
    parity (x >>> 1) n = (parity x (n + 1) ^^ x.getLsbD 0) := by
  induction n with
  | zero => simp [parity]
  | succ n ih =>
      rw [parity, ih, BitVec.getLsbD_ushiftRight, Nat.add_comm 1 n, ← Bool.xor_assoc]
      rfl

theorem parity_shift (hg : parity g w = true) (r : BitVec w) (b : Bool) :
    parity (shift g r b) w = (parity r w ^^ b) := by
  have hright : parity (r >>> 1) w = (parity r w ^^ r.getLsbD 0) := by
    rw [parity_ushiftRight, parity, BitVec.getLsbD_of_ge _ _ le_rfl, Bool.false_xor]
  rw [shift]
  split_ifs with h
  · rw [parity_xor, hright, hg]
    cases parity r w <;> cases hr : r.getLsbD 0 <;> cases b <;> simp_all
  · rw [hright]
    cases parity r w <;> cases hr : r.getLsbD 0 <;> cases b <;> simp_all

/-- If `g` has an odd number of bits, the remainder has the parity of the message. -/
theorem parity_run (hg : parity g w = true) (r : BitVec w) (bs : List Bool) :
    parity (run g r bs) w = (parity r w ^^ (bs.count true).bodd) := by
  induction bs generalizing r with
  | nil => simp
  | cons b bs ih =>
      rw [run_cons, ih, parity_shift hg]
      cases b <;> simp

theorem parity_zero (n : ℕ) : parity 0#w n = false := by
  induction n with
  | zero => rfl
  | succ n ih => simp [parity, ih]

end Parity

/-! ### Few errors -/

section Errors

variable {g : BitVec w} {bs bs' : List Bool}

theorem eq_replicate_of_count (h : bs.count true = 0) : bs = .replicate bs.length false := by
  apply List.eq_replicate_of_mem
  intro b hb
  cases b with
  | false => rfl
  | true => exact absurd hb (List.count_eq_zero.mp h)

/-- The first error. -/
theorem exists_of_count {n : ℕ} (h : bs.count true = n + 1) :
    ∃ m rest, bs = .replicate m false ++ true :: rest ∧ rest.count true = n := by
  induction bs with
  | nil => cases h
  | cons b bs ih =>
      cases b with
      | false =>
          obtain ⟨m, rest, rfl, hrest⟩ := ih (by simpa using h)
          exact ⟨m + 1, rest, by rw [List.replicate_succ, List.cons_append], hrest⟩
      | true => exact ⟨0, bs, rfl, by simpa using h⟩

theorem eq_of_distance (hlen : bs.length = bs'.length) (h : distance bs bs' = 0) : bs = bs' := by
  induction bs generalizing bs' with
  | nil => exact (List.eq_nil_of_length_eq_zero hlen.symm).symm
  | cons b bs ih =>
      cases bs' with
      | nil => cases hlen
      | cons b' bs' =>
          rw [distance, difference, List.zipWith_cons_cons] at h
          have hb : b = b' := by
            cases b <;> cases b' <;> simp_all
          have hrest : distance bs bs' = 0 := by
            rw [hb, Bool.xor_self, List.count_cons_of_ne Bool.false_ne_true] at h
            exact h
          rw [hb, ih (Nat.succ.inj hlen) hrest]

/-- Two errors are noticed unless the register repeats itself between them. -/
theorem run_two_ne_zero {d : ℕ} (hg : g.msb = true) (hd : run g g (.replicate (d + 1) false) ≠ g)
    (m n : ℕ) :
    run g 0#w (.replicate m false ++ true :: (.replicate d false ++ true :: .replicate n false)) ≠
      0#w := by
  have hone : shift g 0#w true = g := by simp [shift]
  obtain ⟨r, hr⟩ : ∃ r, r = run g g (.replicate d false) := ⟨_, rfl⟩
  have hlast : shift g r true = run g g (.replicate (d + 1) false) ^^^ g := by
    have hxor : shift g (r ^^^ 0#w) (false ^^ true) = shift g r false ^^^ shift g 0#w true :=
      shift_xor
    rw [BitVec.xor_zero, Bool.false_xor, hone] at hxor
    rw [hxor, List.replicate_succ', run_append, ← hr]
    rfl
  rw [run_append, run_zero, run_cons, hone, run_append, ← hr, run_cons]
  apply run_replicate_ne_zero hg
  rw [hlast, Ne, BitVec.xor_eq_zero_iff]
  exact hd

/-- Two messages of the same length, of at most `n` bits, that have the same remainder differ in at
least four bits, if `g` has an odd number of bits and the register does not repeat itself within
`n` bits. -/
theorem four_le_distance {n : ℕ} (hmsb : g.msb = true) (hodd : parity g w = true)
    (hperiod : ∀ d < n, 0 < d → run g g (.replicate d false) ≠ g)
    (hlen : bs.length = bs'.length) (hn : bs.length ≤ n) (hne : bs ≠ bs')
    (h : run g 0#w bs = run g 0#w bs') : 4 ≤ distance bs bs' := by
  rw [run_eq_iff hlen] at h
  have hsize : (difference bs bs').length = bs.length := by
    rw [difference, List.length_zipWith, hlen, Nat.min_self]
  have heven : (distance bs bs').bodd = false := by
    have hparity := parity_run hodd 0#w (difference bs bs')
    rw [h, parity_zero, Bool.false_xor] at hparity
    exact hparity.symm
  have hzero : distance bs bs' ≠ 0 := fun hd => hne (eq_of_distance hlen hd)
  have htwo : distance bs bs' ≠ 2 := by
    intro hd
    obtain ⟨m, rest, hrest, hcount⟩ := exists_of_count hd
    obtain ⟨k, rest', hrest', hcount'⟩ := exists_of_count hcount
    rw [hrest, hrest', eq_replicate_of_count hcount'] at h
    refine run_two_ne_zero hmsb (hperiod (k + 1) ?_ k.succ_pos) m rest'.length h
    rw [hrest, hrest'] at hsize
    simp only [List.length_append, List.length_replicate, List.length_cons] at hsize
    omega
  by_contra! hlt
  interval_cases hd : distance bs bs' <;> simp_all

end Errors

end WixelSdk.ShiftRegister
