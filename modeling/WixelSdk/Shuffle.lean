import Mathlib.Data.Nat.Notation
import Mathlib.Logic.Function.Basic

/-!
# Shuffling an array

The Fisher-Yates shuffle: each element in turn changes places with one that is not before it. When
the elements are told apart by `f`, only the offsets zero leave each of them in its place.
-/

namespace WixelSdk.Shuffle

variable {α β : Type*}

def swap (a : ℕ → α) (i j : ℕ) : ℕ → α := Function.update (Function.update a j (a i)) i (a j)

/-- The steps from place `k` on, `m` of them. -/
def shuffleFrom (offset : ℕ → ℕ) : ℕ → ℕ → (ℕ → α) → ℕ → α
  | _, 0, a => a
  | k, m + 1, a => shuffleFrom offset (k + 1) m (swap a k (k + offset k))

variable {a : ℕ → α} {offset : ℕ → ℕ} {i k m : ℕ}

theorem swap_self (a : ℕ → α) (i : ℕ) : swap a i i = a := by
  rw [swap, Function.update_eq_self, Function.update_eq_self]

theorem swap_left (a : ℕ → α) (i j : ℕ) : swap a i j i = a j := Function.update_self ..

theorem swap_of_ne {j : ℕ} (hi : k ≠ i) (hj : k ≠ j) : swap a i j k = a k := by
  rw [swap, Function.update_of_ne hi, Function.update_of_ne hj]

theorem shuffleFrom_of_lt (h : i < k) : shuffleFrom offset k m a i = a i := by
  induction m generalizing k a with
  | zero => rfl
  | succ m ih =>
      rw [shuffleFrom, ih (Nat.lt_succ_of_lt h)]
      exact swap_of_ne (Nat.ne_of_lt h) (Nat.ne_of_lt (Nat.lt_add_right _ h))

theorem shuffleFrom_eq_self (h : ∀ i, k ≤ i → i < k + m → offset i = 0) :
    shuffleFrom offset k m a = a := by
  induction m generalizing k a with
  | zero => rfl
  | succ m ih =>
      have hk := h k (Nat.le_refl k) (Nat.lt_add_of_pos_right (Nat.succ_pos m))
      rw [shuffleFrom, hk, Nat.add_zero k, swap_self]
      exact ih fun i hi hlt => h i (Nat.le_of_succ_le hi) (by omega)

theorem offset_eq_zero {f : α → β}
    (hinj : ∀ i j, k ≤ i → i < k + m → k ≤ j → j < k + m → f (a i) = f (a j) → i = j)
    (hlt : ∀ i, k ≤ i → i < k + m → i + offset i < k + m)
    (h : ∀ i, k ≤ i → i < k + m → f (shuffleFrom offset k m a i) = f (a i)) :
    ∀ i, k ≤ i → i < k + m → offset i = 0 := by
  induction m generalizing k a with
  | zero =>
      intro i hi hlt
      omega
  | succ m ih =>
      have hfirst := hlt k (Nat.le_refl k) (by omega)
      have hk : offset k = 0 := by
        have hkeep := h k (Nat.le_refl k) (by omega)
        rw [shuffleFrom, shuffleFrom_of_lt (Nat.lt_succ_self k), swap_left] at hkeep
        have heq := hinj (k + offset k) k (by omega) hfirst (Nat.le_refl k) (by omega) hkeep
        omega
      rw [shuffleFrom, hk, Nat.add_zero k, swap_self] at h
      intro i hi hlt'
      rcases Nat.eq_or_lt_of_le hi with rfl | hi
      · exact hk
      · have hinj' : ∀ i j, k + 1 ≤ i → i < k + 1 + m → k + 1 ≤ j → j < k + 1 + m →
            f (a i) = f (a j) → i = j := fun i j hi hi' hj hj' =>
          hinj i j (by omega) (by omega) (by omega) (by omega)
        refine ih hinj' (fun i hi hi' => ?_) (fun i hi hi' => h i (by omega) (by omega)) i hi
          (by omega)
        have hle := hlt i (by omega) (by omega)
        omega

/-- A shuffle of the first `n` places that `f` cannot tell from none. -/
theorem shuffle_offset_eq_zero {f : α → β} {n : ℕ}
    (hinj : ∀ i < n, ∀ j < n, f (a i) = f (a j) → i = j) (hlt : ∀ i < n, offset i < n - i)
    (h : ∀ i < n, f (shuffleFrom offset 0 n a i) = f (a i)) : ∀ i < n, offset i = 0 := by
  intro i hi
  rw [← Nat.zero_add n] at hinj hlt h hi
  refine offset_eq_zero (fun i j _ hi _ hj => hinj i hi j hj) (fun i _ hi => ?_)
    (fun i _ hi => ?_) i (Nat.zero_le i) hi
  · have hoffset := hlt i hi
    omega
  · have hkeep := h i hi
    rwa [Nat.zero_add] at hkeep

end WixelSdk.Shuffle
