import Mathlib.Data.List.Basic

/-!
# Copies of a value that changes

A value goes through versions and a reader takes copies of the version that is current: of some
versions none, of others one or more. `counts` says how often each version was taken. The flag
`updated` of the current version is set when it is published and cleared when it is taken.
-/

namespace WixelSdk.Versions

variable {α : Type*} {versions taken : List α} {updated : Bool} {counts : List ℕ} {n : ℕ}

/-- Each version as often as it was taken. -/
def copies (versions : List α) (counts : List ℕ) : List α :=
  (List.zipWith (fun v n => List.replicate n v) versions counts).flatten

theorem copies_concat (h : versions.length = counts.length) (v : α) :
    copies (versions ++ [v]) (counts ++ [n]) = copies versions counts ++ List.replicate n v := by
  unfold copies
  rw [List.zipWith_append h, List.flatten_append]
  exact congrArg _ (List.append_nil _)

theorem copies_sublist (hone : ∀ c ∈ counts, c ≤ 1) : (copies versions counts).Sublist versions := by
  induction versions generalizing counts with
  | nil => exact .slnil
  | cons v versions ih =>
      cases counts with
      | nil => exact List.nil_sublist _
      | cons c counts =>
          have hrest := ih fun c' hc' => hone c' (List.mem_cons_of_mem c hc')
          have hc := hone c List.mem_cons_self
          change (List.replicate c v ++ copies versions counts).Sublist (v :: versions)
          rcases Nat.le_one_iff_eq_zero_or_eq_one.mp hc with rfl | rfl
          · exact hrest.cons v
          · exact hrest.cons_cons v

/-- The current version was taken `n` times so far, the ones before it as `counts` says. -/
structure Mirrors (versions : List α) (updated : Bool) (taken : List α) (counts : List ℕ) (n : ℕ) :
    Prop where
  length : versions.length = counts.length + 1
  taken : taken = copies versions (counts ++ [n])
  fresh : updated = true → n = 0 ∧ counts ≠ []
  old : updated = false → counts ≠ [] → n ≠ 0

namespace Mirrors

theorem start (v : α) : Mirrors [v] false [] [] 0 where
  length := rfl
  taken := rfl
  fresh := nofun
  old := fun _ h => absurd rfl h

theorem publish (h : Mirrors versions updated taken counts n) (v : α) :
    Mirrors (versions ++ [v]) true taken (counts ++ [n]) 0 where
  length := by rw [List.length_append, List.length_append, h.length, List.length_singleton,
    List.length_singleton]
  taken := by
    have hlength : versions.length = (counts ++ [n]).length := by
      rw [h.length, List.length_append, List.length_singleton]
    rw [copies_concat hlength, ← h.taken]
    exact (List.append_nil _).symm
  fresh := fun _ => ⟨rfl, List.append_ne_nil_of_right_ne_nil _ (List.cons_ne_nil _ _)⟩
  old := nofun

/-- The current version is the last one, and `counts` belongs to the others. -/
theorem exists_concat (h : Mirrors versions updated taken counts n) :
    ∃ front v, versions = front ++ [v] ∧ front.length = counts.length := by
  have hne : versions ≠ [] := fun hnil => by
    have hl := h.length
    rw [hnil] at hl
    exact absurd hl.symm counts.length.succ_ne_zero
  obtain ⟨front, v, rfl⟩ := (List.eq_nil_or_concat versions).resolve_left hne
  have hl := h.length
  rw [List.concat_eq_append, List.length_append, List.length_singleton] at hl
  exact ⟨front, v, List.concat_eq_append, Nat.succ_inj.mp hl⟩

theorem take (h : Mirrors versions updated taken counts n) {v : α}
    (hv : versions.getLast? = some v) :
    Mirrors versions false (taken ++ [v]) counts (n + 1) where
  length := h.length
  taken := by
    obtain ⟨front, w, rfl, hlength⟩ := h.exists_concat
    obtain rfl := Option.some.inj (List.getLast?_concat.symm.trans hv)
    rw [h.taken, copies_concat hlength, copies_concat hlength, List.replicate_succ',
      List.append_assoc]
  fresh := nofun
  old := fun _ _ => n.succ_ne_zero

/-- What was taken last is the current version, unless it still has to be taken. -/
theorem getLast_taken (h : Mirrors versions false taken counts n) (hc : counts ≠ []) :
    taken.getLast? = versions.getLast? := by
  obtain ⟨m, rfl⟩ := Nat.exists_eq_succ_of_ne_zero (h.old rfl hc)
  obtain ⟨front, v, rfl, hlength⟩ := h.exists_concat
  rw [h.taken, copies_concat hlength, List.replicate_succ', ← List.append_assoc,
    List.getLast?_concat, List.getLast?_concat]

end Mirrors

/-- No version is taken twice, and the first one, which was not published, not at all. -/
structure Once (counts : List ℕ) : Prop where
  le_one : ∀ c ∈ counts, c ≤ 1
  head : counts.head? = some 0

namespace Once

theorem publish (h : Once counts) : Once (counts ++ [0]) where
  le_one := fun c hc => by
    rcases List.mem_append.mp hc with hc | hc
    · exact h.le_one c hc
    · rw [List.mem_singleton.mp hc]
      exact Nat.zero_le 1
  head := by rw [List.head?_append, h.head]; rfl

theorem take (h : Once (counts ++ [n])) (hne : counts ≠ []) : Once (counts ++ [1]) where
  le_one := fun c hc => by
    rcases List.mem_append.mp hc with hc | hc
    · exact h.le_one c (List.mem_append_left _ hc)
    · exact Nat.le_of_eq (List.mem_singleton.mp hc)
  head := by
    have hhead := h.head
    rw [List.head?_append_of_ne_nil _ hne] at hhead ⊢
    exact hhead

/-- Nothing but versions that were published is taken, in order and each at most once. -/
theorem sublist {v : α} (h : Once counts) : (copies (v :: versions) counts).Sublist versions := by
  cases counts with
  | nil => exact List.nil_sublist _
  | cons c counts =>
      obtain rfl := Option.some.inj h.head
      exact copies_sublist fun c' hc' => h.le_one c' (List.mem_cons_of_mem 0 hc')

end Once
end WixelSdk.Versions
