import Mathlib.Data.Nat.Notation

/-!
# The next place on a circle

Places are numbered modulo `n`. `Next n p k j` says that `j` is the first place after `k` at which
`p` holds; `k` itself comes last.
-/

namespace WixelSdk.Cyclic

variable {n k j d : ℕ} {p : ℕ → Prop}

/-- The first place after `k` at which `p` holds is `d` places ahead. -/
structure Ahead (n : ℕ) (p : ℕ → Prop) (k d : ℕ) : Prop where
  pos : 0 < d
  holds : p ((k + d) % n)
  skips : ∀ e, 0 < e → e < d → ¬ p ((k + e) % n)

def Next (n : ℕ) (p : ℕ → Prop) (k j : ℕ) : Prop := ∃ d, Ahead n p k d ∧ (k + d) % n = j

theorem Ahead.le (h : Ahead n p k d) (hn : 0 < n) : d ≤ n := by
  refine Nat.le_of_not_lt fun hlt => ?_
  have hround : (k + (d - n)) % n = (k + d) % n := by
    rw [show k + d = k + (d - n) + n by omega, Nat.add_mod_right]
  exact h.skips (d - n) (by omega) (by omega) (hround ▸ h.holds)

theorem Ahead.unique {d' : ℕ} (h : Ahead n p k d) (h' : Ahead n p k d') : d = d' := by
  rcases Nat.lt_trichotomy d d' with hlt | heq | hlt
  · exact absurd h.holds (h'.skips d h.pos hlt)
  · exact heq
  · exact absurd h'.holds (h.skips d' h'.pos hlt)

theorem Next.holds (h : Next n p k j) : p j := by
  obtain ⟨d, hd, rfl⟩ := h
  exact hd.holds

theorem Next.lt (h : Next n p k j) (hn : 0 < n) : j < n := by
  obtain ⟨d, -, rfl⟩ := h
  exact Nat.mod_lt _ hn

theorem Next.unique {j' : ℕ} (h : Next n p k j) (h' : Next n p k j') : j = j' := by
  obtain ⟨d, hd, rfl⟩ := h
  obtain ⟨d', hd', rfl⟩ := h'
  rw [hd.unique hd']

theorem next_of_holds (h : p ((k + 1) % n)) : Next n p k ((k + 1) % n) :=
  ⟨1, ⟨Nat.one_pos, h, fun _ hpos hlt => absurd hlt (Nat.not_lt.mpr hpos)⟩, rfl⟩

theorem Next.of_skip (hskip : ¬ p ((k + 1) % n)) (h : Next n p (k + 1) j) : Next n p k j := by
  obtain ⟨d, hd, rfl⟩ := h
  have hsucc : ∀ e, k + 1 + e = k + (e + 1) := fun e => by omega
  refine ⟨d + 1, ⟨Nat.succ_pos d, hsucc d ▸ hd.holds, fun e hpos hlt => ?_⟩, by rw [hsucc]⟩
  obtain ⟨e, rfl⟩ := Nat.exists_eq_succ_of_ne_zero (Nat.ne_of_gt hpos)
  by_cases hzero : e = 0
  · rw [hzero]
    exact hskip
  · exact hsucc e ▸ hd.skips e (Nat.pos_of_ne_zero hzero) (Nat.lt_of_succ_lt_succ hlt)

end WixelSdk.Cyclic
