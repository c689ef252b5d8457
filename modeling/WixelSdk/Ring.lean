import Mathlib.Data.List.Basic
import Mathlib.Data.List.Range
import Mathlib.Logic.Function.Basic

/-!
# Circular buffers described by two indices

A ring of `N` slots is shared by a reader at index `r` and a writer at index `w`. The slots from
`r` up to but not including `w`, going around the end of the memory, are owned by the reader; at
most `N - 1` slots are ever owned, so `r = w` means that nothing is. `owned` lists these slots in
order and `contents` lists what the memory holds in them. The lemmas say what advancing either
index and writing at `w` do to both.
-/

namespace WixelSdk.Ring

variable {α β : Type*} {N r w i : ℕ}

def next (N i : ℕ) : ℕ := if i = N - 1 then 0 else i + 1

def count (N r w : ℕ) : ℕ := if r ≤ w then w - r else w + N - r

def index (N r k : ℕ) : ℕ := if r + k < N then r + k else r + k - N

def owned (N r w : ℕ) : List ℕ := (List.range (count N r w)).map (index N r)

def contents (N : ℕ) (mem : ℕ → α) (r w : ℕ) : List α := (owned N r w).map mem

theorem next_lt (hi : i < N) : next N i < N := by
  unfold next
  split_ifs <;> omega

theorem succ_mod_eq_next (hi : i < N) : (i + 1) % N = next N i := by
  unfold next
  split_ifs with he
  · have hN : i + 1 = N := by omega
    rw [hN, Nat.mod_self]
  · exact Nat.mod_eq_of_lt (by omega)

theorem next_inj {j : ℕ} : next N i = next N j ↔ i = j := by
  refine ⟨fun h => ?_, congrArg _⟩
  rw [next, next] at h
  split_ifs at h <;> omega

theorem next_ne_self (hN : 1 < N) : next N i ≠ i := by
  unfold next
  split_ifs <;> omega

@[simp] theorem count_self : count N r r = 0 := by simp [count]

theorem count_lt (hr : r < N) (hw : w < N) : count N r w < N := by
  unfold count
  split_ifs <;> omega

theorem count_eq_zero (hr : r < N) : count N r w = 0 ↔ r = w := by
  unfold count
  split_ifs <;> omega

theorem count_next_write (hr : r < N) (hw : w < N) (hfull : next N w ≠ r) :
    count N r (next N w) = count N r w + 1 := by
  unfold count next at *
  split_ifs at * <;> omega

theorem count_next_read (hr : r < N) (hw : w < N) (hne : r ≠ w) :
    count N (next N r) w + 1 = count N r w := by
  unfold count next
  split_ifs <;> omega

theorem next_eq_iff_count (hN : 2 ≤ N) (hr : r < N) (hw : w < N) :
    next N w = r ↔ count N r w = N - 1 := by
  unfold count next
  split_ifs <;> omega

theorem index_zero (hr : r < N) : index N r 0 = r := by simp [index, hr]

theorem index_succ {k : ℕ} (hr : r < N) (hk : k + 1 < N) :
    index N r (k + 1) = index N (next N r) k := by
  unfold index next
  split_ifs <;> omega

theorem index_count (hr : r < N) (hw : w < N) : index N r (count N r w) = w := by
  unfold index count
  split_ifs <;> omega

@[simp] theorem owned_self : owned N r r = [] := by simp [owned]

@[simp] theorem length_owned : (owned N r w).length = count N r w := by simp [owned]

theorem owned_cons (hr : r < N) (hw : w < N) (hne : r ≠ w) :
    owned N r w = r :: owned N (next N r) w := by
  have hc := count_next_read hr hw hne
  have hlt := count_lt hr hw
  unfold owned
  rw [← hc, List.range_succ_eq_map, List.map_cons, index_zero hr, List.map_map]
  congr 1
  apply List.map_congr_left
  intro k hk
  exact index_succ hr (by have := List.mem_range.mp hk; omega)

theorem owned_next_write (hr : r < N) (hw : w < N) (hfull : next N w ≠ r) :
    owned N r (next N w) = owned N r w ++ [w] := by
  unfold owned
  rw [count_next_write hr hw hfull, List.range_succ, List.map_append, List.map_singleton,
    index_count hr hw]

theorem owned_lt (hr : r < N) (hw : w < N) (hi : i ∈ owned N r w) : i < N := by
  obtain ⟨k, hk, rfl⟩ := List.mem_map.mp hi
  have hlt := count_lt hr hw
  have hk' := List.mem_range.mp hk
  unfold index
  split_ifs <;> omega

/-- The writer's own slot is never one of the reader's. -/
theorem write_notMem_owned (hw : w < N) : w ∉ owned N r w := by
  intro hmem
  obtain ⟨k, hk, he⟩ := List.mem_map.mp hmem
  have hk' := List.mem_range.mp hk
  unfold index at he
  unfold count at hk'
  split_ifs at he hk' <;> omega

@[simp] theorem contents_self (mem : ℕ → α) : contents N mem r r = [] := by simp [contents]

@[simp] theorem length_contents (mem : ℕ → α) : (contents N mem r w).length = count N r w := by
  simp [contents]

theorem contents_eq_nil (mem : ℕ → α) (hr : r < N) :
    contents N mem r w = [] ↔ r = w := by
  rw [← List.length_eq_zero_iff, length_contents, count_eq_zero hr]

theorem contents_cons (mem : ℕ → α) (hr : r < N) (hw : w < N) (hne : r ≠ w) :
    contents N mem r w = mem r :: contents N mem (next N r) w := by
  simp only [contents, owned_cons hr hw hne, List.map_cons]

theorem contents_next_write (mem : ℕ → α) (hr : r < N) (hw : w < N) (hfull : next N w ≠ r) :
    contents N mem r (next N w) = contents N mem r w ++ [mem w] := by
  simp only [contents, owned_next_write hr hw hfull, List.map_append, List.map_singleton]

theorem contents_congr {mem mem' : ℕ → α} (h : ∀ i ∈ owned N r w, mem i = mem' i) :
    contents N mem r w = contents N mem' r w := List.map_congr_left h

/-- Writing the writer's slot does not touch what the reader owns. -/
theorem contents_update (f : α → β) (mem : ℕ → α) (x : α) (hw : w < N) :
    contents N (fun i => f (Function.update mem w x i)) r w =
      contents N (fun i => f (mem i)) r w := by
  apply contents_congr
  intro i hi
  have hne : i ≠ w := fun he => write_notMem_owned hw (he ▸ hi)
  exact congrArg f (Function.update_of_ne hne _ _)

/-- Writing the writer's slot and handing it over appends what was written. -/
theorem contents_push (f : α → β) (mem : ℕ → α) (x : α) (hr : r < N) (hw : w < N)
    (hfull : next N w ≠ r) : contents N (fun i => f (Function.update mem w x i)) r (next N w) =
      contents N (fun i => f (mem i)) r w ++ [f x] := by
  rw [contents_next_write _ hr hw hfull, contents_update f mem x hw, Function.update_self]

theorem contents_head? (mem : ℕ → α) (hr : r < N) (hw : w < N) (hne : r ≠ w) :
    (contents N mem r w).head? = some (mem r) := by
  rw [contents_cons mem hr hw hne, List.head?_cons]

end WixelSdk.Ring
