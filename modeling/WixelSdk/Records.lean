import Mathlib.Data.Nat.Notation
import Mathlib.Order.Lattice

/-!
# Records of a search

A search for the nearest candidate goes through the numbers in order and keeps the candidate that is
nearer than a bound and than every candidate before it.
-/

namespace WixelSdk.Records

variable {α : Type*} [LinearOrder α] {p : ℕ → Prop} {d : ℕ → α} {b : α} {n i j : ℕ}

/-- The search takes the candidate `i` when it gets there. -/
structure IsRecord (p : ℕ → Prop) (d : ℕ → α) (b : α) (i : ℕ) : Prop where
  candidate : p i
  bound : d i < b
  nearer : ∀ j < i, p j → d i < d j

instance [DecidablePred p] : Decidable (IsRecord p d b i) :=
  decidable_of_iff (p i ∧ d i < b ∧ ∀ j < i, p j → d i < d j)
    ⟨fun h => ⟨h.1, h.2.1, h.2.2⟩, fun h => ⟨h.1, h.2, h.3⟩⟩

/-- None of the first `n` numbers is a candidate within the bound. -/
def NoneNear (p : ℕ → Prop) (d : ℕ → α) (b : α) (n : ℕ) : Prop := ∀ j < n, p j → b ≤ d j

/-- What the search has after `n` numbers. -/
structure IsNearest (p : ℕ → Prop) (d : ℕ → α) (b : α) (n i : ℕ) : Prop where
  lt : i < n
  record : IsRecord p d b i
  least : ∀ j < n, p j → d i ≤ d j

instance [DecidablePred p] : Decidable (IsNearest p d b n i) :=
  decidable_of_iff (i < n ∧ IsRecord p d b i ∧ ∀ j < n, p j → d i ≤ d j)
    ⟨fun h => ⟨h.1, h.2.1, h.2.2⟩, fun h => ⟨h.1, h.2, h.3⟩⟩

theorem NoneNear.record_iff (h : NoneNear p d b n) : IsRecord p d b n ↔ p n ∧ d n < b :=
  ⟨fun hr => ⟨hr.candidate, hr.bound⟩,
    fun ⟨hp, hd⟩ => ⟨hp, hd, fun j hj hpj => lt_of_lt_of_le hd (h j hj hpj)⟩⟩

theorem IsNearest.record_iff (h : IsNearest p d b n i) : IsRecord p d b n ↔ p n ∧ d n < d i := by
  constructor
  · exact fun hr => ⟨hr.candidate, hr.nearer i h.lt h.record.candidate⟩
  · rintro ⟨hp, hd⟩
    exact ⟨hp, lt_trans hd h.record.bound, fun j hj hpj => lt_of_lt_of_le hd (h.least j hj hpj)⟩

theorem NoneNear.not_record (h : NoneNear p d b n) (hi : i < n) : ¬ IsRecord p d b i :=
  fun hr => not_lt.mpr (h i hi hr.candidate) hr.bound

theorem NoneNear.succ (h : NoneNear p d b n) (hn : ¬ IsRecord p d b n) :
    NoneNear p d b (n + 1) := by
  intro j hj hp
  rcases Nat.lt_succ_iff_lt_or_eq.mp hj with hj | rfl
  · exact h j hj hp
  · exact not_lt.mp fun hd => hn (h.record_iff.mpr ⟨hp, hd⟩)

theorem IsNearest.succ (h : IsNearest p d b n i) (hn : ¬ IsRecord p d b n) :
    IsNearest p d b (n + 1) i := by
  refine ⟨Nat.lt_succ_of_lt h.lt, h.record, fun j hj hp => ?_⟩
  rcases Nat.lt_succ_iff_lt_or_eq.mp hj with hj | rfl
  · exact h.least j hj hp
  · exact not_lt.mp fun hd => hn (h.record_iff.mpr ⟨hp, hd⟩)

theorem IsRecord.nearest (h : IsRecord p d b n) : IsNearest p d b (n + 1) n := by
  refine ⟨Nat.lt_succ_self n, h, fun j hj hp => ?_⟩
  rcases Nat.lt_succ_iff_lt_or_eq.mp hj with hj | rfl
  · exact le_of_lt (h.nearer j hj hp)
  · exact le_refl _

theorem IsNearest.unique (h : IsNearest p d b n i) (h' : IsNearest p d b n j) : i = j := by
  rcases Nat.lt_trichotomy i j with hij | rfl | hji
  · exact absurd (h'.record.nearer i hij h.record.candidate)
      (not_lt.mpr (h.least j h'.lt h'.record.candidate))
  · rfl
  · exact absurd (h.record.nearer j hji h'.record.candidate)
      (not_lt.mpr (h'.least i h.lt h.record.candidate))

end WixelSdk.Records
