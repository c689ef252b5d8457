import Mathlib.Data.List.Basic
import Mathlib.Data.List.Pairwise

/-!
# Packets handed to a transmitter one at a time

A sender keeps a queue and hands its first packet to a transmitter, which either completes the
packet or is interrupted; an interrupted packet is handed over again. `handed` lists the hand-overs,
each with the number of packets completed before it, and `active` is the packet being transmitted.
`HandOver` says that the hand-overs follow the queue, that no completed packet was left out, and
that without an interruption each packet was handed over once.
-/

namespace WixelSdk

variable {α : Type*}

structure HandOver (queued completed : List α) (handed : List (ℕ × α)) (interrupted : Bool)
    (active : Option α) : Prop where
  completed_prefix : completed <+: queued
  genuine : ∀ h ∈ handed, queued[h.1]? = some h.2 ∧ h.1 ≤ completed.length
  inOrder : (handed.map Prod.fst).Pairwise (· ≤ ·)
  complete : ∀ k p, completed[k]? = some p → (k, p) ∈ handed
  current : ∀ p, active = some p → (completed.length, p) ∈ handed
  once : interrupted = false → handed.map Prod.snd = completed ++ active.toList

namespace HandOver

variable {queued completed : List α} {handed : List (ℕ × α)} {interrupted : Bool}
  {active : Option α} {p : α}

theorem init : HandOver ([] : List α) [] [] false none where
  completed_prefix := List.prefix_rfl
  genuine h hm := by cases hm
  inOrder := List.Pairwise.nil
  complete k p hp := by cases hp
  current p hp := by cases hp
  once _ := rfl

theorem enqueue (h : HandOver queued completed handed interrupted active) (p : α) :
    HandOver (queued ++ [p]) completed handed interrupted active where
  completed_prefix := h.completed_prefix.trans (List.prefix_append _ _)
  genuine x hx := by
    obtain ⟨hq, hle⟩ := h.genuine x hx
    have hlt := (List.getElem?_eq_some_iff.mp hq).choose
    exact ⟨by rw [List.getElem?_append_left hlt, hq], hle⟩
  inOrder := h.inOrder
  complete := h.complete
  current := h.current
  once := h.once

/-- The packet being transmitted is the first one that is not completed. -/
theorem active_eq (h : HandOver queued completed handed interrupted (some p)) :
    queued[completed.length]? = some p :=
  (h.genuine _ (h.current p rfl)).1

theorem finish (h : HandOver queued completed handed interrupted (some p)) :
    HandOver queued (completed ++ [p]) handed interrupted none where
  completed_prefix := by
    obtain ⟨rest, rfl⟩ := h.completed_prefix
    have hp := h.active_eq
    rw [List.getElem?_append_right (Nat.le_refl _), Nat.sub_self] at hp
    cases rest with
    | nil => cases hp
    | cons x rest =>
        obtain rfl := Option.some.inj hp
        exact ⟨rest, by simp⟩
  genuine x hx := by
    obtain ⟨hq, hle⟩ := h.genuine x hx
    exact ⟨hq, by simp only [List.length_append, List.length_singleton]; omega⟩
  inOrder := h.inOrder
  complete k x hx := by
    by_cases hk : k < completed.length
    · rw [List.getElem?_append_left hk] at hx
      exact h.complete k x hx
    · have hlt := (List.getElem?_eq_some_iff.mp hx).choose
      have he : k = completed.length := by
        simp only [List.length_append, List.length_singleton] at hlt
        omega
      subst he
      rw [List.getElem?_append_right (Nat.le_refl _), Nat.sub_self] at hx
      obtain rfl := Option.some.inj hx
      exact h.current p rfl
  current p hp := by cases hp
  once hi := by rw [h.once hi]; simp

theorem interrupt (h : HandOver queued completed handed interrupted active) :
    HandOver queued completed handed true none where
  completed_prefix := h.completed_prefix
  genuine := h.genuine
  inOrder := h.inOrder
  complete := h.complete
  current p hp := by cases hp
  once hi := by cases hi

theorem start (h : HandOver queued completed handed interrupted none)
    (hp : queued[completed.length]? = some p) :
    HandOver queued completed (handed ++ [(completed.length, p)]) interrupted (some p) where
  completed_prefix := h.completed_prefix
  genuine x hx := by
    rcases List.mem_append.mp hx with hx | hx
    · exact h.genuine x hx
    · obtain rfl := List.mem_singleton.mp hx
      exact ⟨hp, Nat.le_refl _⟩
  inOrder := by
    rw [List.map_append, List.pairwise_append]
    refine ⟨h.inOrder, List.pairwise_singleton _ _, ?_⟩
    intro k hk l hl
    obtain ⟨x, hx, rfl⟩ := List.mem_map.mp hk
    obtain rfl := List.mem_singleton.mp hl
    exact (h.genuine x hx).2
  complete k x hx := List.mem_append_left _ (h.complete k x hx)
  current x hx := by
    obtain rfl := Option.some.inj hx
    exact List.mem_append_right _ (List.mem_singleton_self _)
  once hi := by
    have ho := h.once hi
    simp only [Option.toList_none, List.append_nil] at ho
    simp [ho]

end HandOver
end WixelSdk
