import Mathlib.Data.List.Basic
import WixelSdk.Ring

/-!
# Bounded queues

A list of at most `capacity` elements. `push` refuses an element when the list is full, `pushForce`
drops the oldest one instead. A ring of `N` slots holds such a list with capacity `N - 1`: `Holds`
relates the two, and the lemmas say which steps on the ring are which operations on the list.
-/

namespace WixelSdk

variable {α β : Type*} {capacity : ℕ}

structure BoundedFifo (α : Type*) (capacity : ℕ) where
  list : List α
  fits : list.length ≤ capacity

namespace BoundedFifo

variable (q : BoundedFifo α capacity) (x : α)

def empty : BoundedFifo α capacity := ⟨[], Nat.zero_le _⟩

def push : Bool × BoundedFifo α capacity :=
  if h : q.list.length < capacity then
    (true, ⟨q.list ++ [x], by rw [List.length_append, List.length_singleton]; exact h⟩)
  else (false, q)

def pushForce : BoundedFifo α capacity :=
  if h : q.list.length < capacity then
    ⟨q.list ++ [x], by rw [List.length_append, List.length_singleton]; exact h⟩
  else
    ⟨(q.list ++ [x]).tail, by
      rw [List.length_tail, List.length_append, List.length_singleton]; exact q.fits⟩

def pop : Option α × BoundedFifo α capacity :=
  (q.list.head?, ⟨q.list.tail, by
    rw [List.length_tail]
    exact Nat.le_trans (Nat.sub_le _ _) q.fits⟩)

def drop (n : ℕ) : BoundedFifo α capacity :=
  ⟨q.list.drop n, by
    rw [List.length_drop]
    exact Nat.le_trans (Nat.sub_le _ _) q.fits⟩

theorem push_of_lt (h : q.list.length < capacity) :
    (q.push x).1 = true ∧ (q.push x).2.list = q.list ++ [x] := by
  rw [push, dif_pos h]
  exact ⟨rfl, rfl⟩

theorem push_of_full (h : q.list.length = capacity) : q.push x = (false, q) :=
  dif_neg (by rw [h]; exact Nat.lt_irrefl _)

theorem pushForce_of_lt (h : q.list.length < capacity) :
    (q.pushForce x).list = q.list ++ [x] := by
  rw [pushForce, dif_pos h]

theorem pushForce_of_full (h : q.list.length = capacity) :
    (q.pushForce x).list = (q.list ++ [x]).tail := by
  rw [pushForce, dif_neg (by rw [h]; exact Nat.lt_irrefl _)]

end BoundedFifo

namespace Ring

variable {N r w : ℕ} {mem : ℕ → α}

structure Holds (N : ℕ) (mem : ℕ → α) (r w : ℕ) (q : BoundedFifo α (N - 1)) : Prop where
  read_lt : r < N
  write_lt : w < N
  contents : contents N mem r w = q.list

namespace Holds

variable {q : BoundedFifo α (N - 1)}

theorem empty (hr : r < N) : Holds N mem r r .empty := ⟨hr, hr, contents_self mem⟩

theorem full_iff (h : Holds N mem r w q) (hN : 2 ≤ N) :
    next N w = r ↔ q.list.length = N - 1 := by
  rw [next_eq_iff_count hN h.read_lt h.write_lt, ← h.contents, length_contents]

theorem nil_iff (h : Holds N mem r w q) : r = w ↔ q.list = [] := by
  rw [← h.contents, contents_eq_nil mem h.read_lt]

theorem lt_of_not_full (h : Holds N mem r w q) (hN : 2 ≤ N) (hfull : next N w ≠ r) :
    q.list.length < N - 1 :=
  Nat.lt_of_le_of_ne q.fits fun he => hfull ((h.full_iff hN).mpr he)

theorem push (h : Holds N mem r w q) (hfull : next N w ≠ r) (x : α) {q' : BoundedFifo α (N - 1)}
    (hq : q'.list = q.list ++ [x]) : Holds N (Function.update mem w x) r (next N w) q' where
  read_lt := h.read_lt
  write_lt := next_lt h.write_lt
  contents := by
    rw [hq, ← h.contents]
    exact contents_push id mem x h.read_lt h.write_lt hfull

theorem pop (h : Holds N mem r w q) (hne : r ≠ w) :
    Holds N mem (next N r) w q.pop.2 ∧ q.pop.1 = some (mem r) := by
  have hcons := h.contents.symm.trans (contents_cons mem h.read_lt h.write_lt hne)
  refine ⟨⟨next_lt h.read_lt, h.write_lt, ?_⟩, ?_⟩
  · change _ = q.list.tail
    rw [hcons, List.tail_cons]
  · change q.list.head? = _
    rw [hcons, List.head?_cons]

/-- Both ends of a full ring move on. -/
theorem pushForce (h : Holds N mem r w q) (hN : 2 ≤ N) (hfull : next N w = r) (x : α) :
    Holds N (Function.update mem w x) (next N r) (next N w) (q.pushForce x) := by
  have hne : r ≠ w := by
    intro he
    rw [← he, next] at hfull
    split_ifs at hfull <;> omega
  have hne' : next N w ≠ next N r := by
    rw [hfull, next]
    split_ifs <;> omega
  obtain ⟨hpop, -⟩ := h.pop hne
  apply hpop.push hne'
  have hlist := h.contents.symm.trans (contents_cons mem h.read_lt h.write_lt hne)
  change _ = q.list.tail ++ [x]
  rw [q.pushForce_of_full x ((h.full_iff hN).mp hfull), hlist]
  rfl

end Holds
end Ring
end WixelSdk
