import Mathlib.Data.Set.Basic
import Mathlib.Data.List.Basic

/-!
# Events that are latched until they are reported

A latch collects the events that are raised. A report takes all of them and empties the latch.
Values of type `α` stand for sets of events, as the bits of a register do: `occurs e a` says that `e`
is one of the events in `a`. A log lists what was raised and what was reported, and `Faithful` says
that each report has exactly the events that were pending.
-/

namespace WixelSdk.Latch

inductive Entry (α : Type*)
  | raised (a : α)
  | reported (a : α)
  deriving DecidableEq, Repr

variable {α ε : Type*} {occurs : ε → α → Prop} {log before between after : List (Entry α)}
  {a b : α} {e : ε}

def Entry.reported? : Entry α → Option α
  | .raised _ => none
  | .reported a => some a

def next (occurs : ε → α → Prop) (pending : Set ε) : Entry α → Set ε
  | .raised a => pending ∪ {e | occurs e a}
  | .reported _ => ∅

def pending (occurs : ε → α → Prop) (log : List (Entry α)) : Set ε := log.foldl (next occurs) ∅

def Faithful (occurs : ε → α → Prop) (log : List (Entry α)) : Prop :=
  ∀ before a after, log = before ++ .reported a :: after →
    {e | occurs e a} = pending occurs before

theorem pending_append (before after : List (Entry α)) :
    pending occurs (before ++ after) = after.foldl (next occurs) (pending occurs before) :=
  List.foldl_append

theorem pending_raised (log : List (Entry α)) (a : α) :
    pending occurs (log ++ [.raised a]) = pending occurs log ∪ {e | occurs e a} :=
  pending_append log _

theorem pending_reported (log : List (Entry α)) (a : α) :
    pending occurs (log ++ [.reported a]) = ∅ := pending_append log _

theorem Faithful.nil : Faithful occurs ([] : List (Entry α)) := fun before a after h => by
  cases before <;> cases h

theorem Faithful.concat (h : Faithful occurs log) {x : Entry α}
    (hx : ∀ a, x = .reported a → {e | occurs e a} = pending occurs log) :
    Faithful occurs (log ++ [x]) := by
  intro before b after hlog
  rcases List.eq_nil_or_concat after with rfl | ⟨after, y, rfl⟩
  · obtain ⟨rfl, hlast⟩ := List.append_inj' hlog rfl
    exact hx b (List.head_eq_of_cons_eq hlast)
  · rw [List.concat_eq_append, ← List.cons_append, ← List.append_assoc] at hlog
    exact h before b after (List.append_inj' hlog rfl).1

theorem Faithful.raised (h : Faithful occurs log) (a : α) :
    Faithful occurs (log ++ [.raised a]) := h.concat nofun

theorem Faithful.reported (h : Faithful occurs log) (ha : {e | occurs e a} = pending occurs log) :
    Faithful occurs (log ++ [.reported a]) :=
  h.concat fun _ hb => Entry.reported.inj hb ▸ ha

/-- What is pending stays pending until the next report. -/
theorem mem_foldl_next {p : Set ε} (he : e ∈ p) (hnone : log.filterMap Entry.reported? = []) :
    e ∈ log.foldl (next occurs) p := by
  induction log generalizing p with
  | nil => exact he
  | cons x log ih =>
      cases x with
      | raised a => exact ih (Or.inl he) hnone
      | reported a => cases hnone

/-- What is pending has been pending before or has been raised. -/
theorem raised_of_mem_foldl_next {p : Set ε} (he : e ∈ log.foldl (next occurs) p) :
    e ∈ p ∨ ∃ a, .raised a ∈ log ∧ occurs e a := by
  induction log generalizing p with
  | nil => exact Or.inl he
  | cons x log ih =>
      rcases ih he with hx | ⟨c, hc, hec⟩
      · cases x with
        | raised a => exact hx.imp_right fun ha => ⟨a, List.mem_cons_self, ha⟩
        | reported a => exact absurd hx (Set.notMem_empty e)
      · exact Or.inr ⟨c, List.mem_cons_of_mem x hc, hec⟩

/-- An event is in the first report after it was raised. -/
theorem Faithful.occurs_of_first (h : Faithful occurs log)
    (hlog : log = before ++ .raised a :: after)
    (hb : (after.filterMap Entry.reported?).head? = some b) (he : occurs e a) : occurs e b := by
  obtain ⟨reports, hreports⟩ := List.head?_eq_some_iff.mp hb
  obtain ⟨between, x, rest, rfl, hnone, hx, -⟩ := List.filterMap_eq_cons_iff.mp hreports
  have hxb : x = .reported b := by
    cases x with
    | raised c => cases hx
    | reported c => exact congrArg Entry.reported (Option.some.inj hx)
  rw [hxb, ← List.cons_append, ← List.append_assoc] at hlog
  have hreport := h _ b rest hlog
  rw [pending_append, List.foldl_cons] at hreport
  have hraised : e ∈ next occurs (pending occurs before) (.raised a) := Or.inr he
  exact hreport.symm.subset (mem_foldl_next hraised (List.filterMap_eq_nil_iff.mpr hnone))

/-- The events of a report have been raised since the last one. -/
theorem Faithful.raised_of_occurs (h : Faithful occurs log)
    (hlog : log = before ++ .reported a :: (between ++ .reported b :: after)) (he : occurs e b) :
    ∃ c, .raised c ∈ between ∧ occurs e c := by
  rw [← List.cons_append, ← List.append_assoc] at hlog
  have hreport := h _ b after hlog
  rw [pending_append] at hreport
  have hpending : e ∈ between.foldl (next occurs) ∅ := hreport.subset he
  exact (raised_of_mem_foldl_next hpending).resolve_left (Set.notMem_empty e)

end WixelSdk.Latch
