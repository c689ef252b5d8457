import Mathlib.Data.List.Find

/-!
# The last write of a loop

A loop over a list whose step writes an observation of the state for some elements and leaves it alone
for the others. After the loop the observation is what the last such element wrote.
-/

namespace WixelSdk.LastWrite

variable {σ α β γ : Type*} {step : σ → α → σ} {get : σ → β} {p q : α → Bool} {v : α → β}

/-- Where `p` holds, `step` writes the value `v`; elsewhere it writes nothing. -/
structure Writes (step : σ → α → σ) (get : σ → β) (p : α → Bool) (v : α → β) : Prop where
  write : ∀ s a, p a = true → get (step s a) = v a
  skip : ∀ s a, p a = false → get (step s a) = get s

theorem Writes.foldl (h : Writes step get p v) (l : List α) (s : σ) :
    get (l.foldl step s) = ((l.findRev? p).map v).getD (get s) := by
  induction l generalizing s with
  | nil => rfl
  | cons a l ih =>
    rw [List.foldl_cons, ih, List.findRev?]
    cases l.findRev? p with
    | some b => rfl
    | none =>
      cases hp : p a with
      | false => exact h.skip s a hp
      | true => exact h.write s a hp

theorem foldl_keeps (get : σ → β) (h : ∀ s a, get (step s a) = get s) (l : List α) (s : σ) :
    get (l.foldl step s) = get s := by
  induction l generalizing s with
  | nil => rfl
  | cons a l ih => exact (ih (step s a)).trans (h s a)

theorem findRev?_eq_none {l : List α} : l.findRev? p = none ↔ ∀ a ∈ l, p a = false := by
  rw [List.findRev?_eq_find?_reverse, List.find?_eq_none]
  simp only [List.mem_reverse, Bool.not_eq_true]

theorem findRev?_eq_some {l : List α} {a : α} (h : l.findRev? p = some a) : a ∈ l ∧ p a = true := by
  rw [List.findRev?_eq_find?_reverse] at h
  exact ⟨List.mem_reverse.mp (List.mem_of_find?_eq_some h), List.find?_some h⟩

theorem Writes.foldl_of_none (h : Writes step get p v) {l : List α}
    (hl : ∀ a ∈ l, p a = false) (s : σ) : get (l.foldl step s) = get s := by
  rw [h.foldl, findRev?_eq_none.mpr hl]
  rfl

/-- A loop in the step of which all writes are of one value. -/
theorem Writes.nested {inner : γ → σ → α → σ} {w : γ → β} {r : γ → α → Bool}
    (h : ∀ c, Writes (inner c) get (r c) fun _ => w c) (l : List α) :
    Writes (fun s c => l.foldl (inner c) s) get (fun c => l.any (r c)) w := by
  constructor
  · intro s c hany
    obtain ⟨a, ha, hr⟩ := List.any_eq_true.mp hany
    rw [(h c).foldl]
    cases hfind : l.findRev? (r c) with
    | none => exact absurd ((findRev?_eq_none.mp hfind a ha).symm.trans hr) Bool.false_ne_true
    | some a => rfl
  · intro s c hany
    refine (h c).foldl_of_none (fun a ha => ?_) s
    exact Bool.eq_false_of_not_eq_true (List.any_eq_false.mp hany a ha)

/-- The last element after a filter and a map is looked up in the list itself. -/
theorem findRev?_map_filter {f : α → γ} {r : γ → Bool} {l : List α}
    (h : ∀ a ∈ l, (q a && r (f a)) = p a) :
    ((l.filter q).map f).findRev? r = (l.findRev? p).map f := by
  rw [List.findRev?_eq_find?_reverse, List.findRev?_eq_find?_reverse, ← List.map_reverse,
    List.find?_map, ← List.filter_reverse, List.find?_filter]
  congr 1
  apply List.find?_congr
  intro a ha
  rw [← h a (List.mem_reverse.mp ha), Bool.decide_and, Bool.decide_eq_true, Bool.decide_eq_true]
  rfl

end WixelSdk.LastWrite
