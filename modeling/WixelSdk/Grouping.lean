import Mathlib.Data.List.Basic
import Mathlib.Tactic.SplitIfs

/-!
# Groups in the lines of a stream

Delimiters cut a stream into lines, and each line consists of groups of `n` elements, with an incomplete
group at its end that counts for nothing. `items` says so of a whole stream, and `feed` takes the
elements one at a time.
-/

namespace WixelSdk.Grouping

variable {α : Type*} (p : α → Bool) (n : ℕ)

inductive Item (α : Type*)
  | group (g : List α)
  | delimiter

def groups : List α → List (List α)
  | [] => []
  | a :: as =>
    if 0 < n ∧ n ≤ as.length + 1 then ((a :: as).take n) :: groups ((a :: as).drop n) else []
termination_by as => as.length
decreasing_by
  rw [List.length_drop, List.length_cons]
  omega

/-- The complete groups and the delimiters of a stream. -/
def items (as : List α) : List (Item α) :=
  List.intercalate [.delimiter] ((as.splitOnP p).map fun line => (groups n line).map .group)

/-- The incomplete group and the items so far, with one more element. -/
def feed (s : List α × List (Item α)) (a : α) : List α × List (Item α) :=
  if p a then ([], s.2 ++ [.delimiter])
  else if s.1.length + 1 = n then ([], s.2 ++ [.group (s.1 ++ [a])])
  else (s.1 ++ [a], s.2)

variable {p n} {as buf : List α} {out : List (Item α)} {a : α}

theorem groups_of_lt (h : as.length < n) : groups n as = [] := by
  cases as with
  | nil => rw [groups]
  | cons a as =>
    rw [groups, if_neg]
    rw [List.length_cons] at h
    omega

theorem groups_append (hn : 0 < n) (h : buf.length = n) (as : List α) :
    groups n (buf ++ as) = buf :: groups n as := by
  cases buf with
  | nil => exact absurd h.symm (Nat.ne_of_gt hn)
  | cons b buf =>
    have hle : n ≤ (buf ++ as).length + 1 := by
      rw [List.length_append]
      rw [List.length_cons] at h
      omega
    rw [List.cons_append, groups, if_pos ⟨hn, hle⟩, ← List.cons_append, List.take_left' h,
      List.drop_left' h]

/-- The first line of `buf ++ as` begins with `buf`. -/
theorem splitOnP_append (h : ∀ x ∈ buf, p x = false) (as : List α) :
    (buf ++ as).splitOnP p = (as.splitOnP p).modifyHead fun line => buf ++ line := by
  induction buf with
  | nil =>
    rw [List.nil_append]
    exact (congrFun List.modifyHead_id (as.splitOnP p)).symm
  | cons b buf ih =>
    obtain ⟨hb, hbuf⟩ := List.forall_mem_cons.mp h
    rw [List.cons_append, List.splitOnP_cons_eq_if_modifyHead, hb, if_neg Bool.false_ne_true,
      ih hbuf, List.modifyHead_modifyHead]
    rfl

theorem items_of_lt (h : ∀ x ∈ buf, p x = false) (hlt : buf.length < n) : items p n buf = [] := by
  rw [items, List.splitOnP_eq_singleton h, List.map_singleton, groups_of_lt hlt]
  rfl

/-- A delimiter discards the incomplete group before it. -/
theorem items_delimiter (h : ∀ x ∈ buf, p x = false) (hlt : buf.length < n) (ha : p a = true)
    (as : List α) : items p n (buf ++ a :: as) = .delimiter :: items p n as := by
  rw [items, List.splitOnP_append_cons_of_forall_mem h a ha, List.map_cons, groups_of_lt hlt, items]
  cases hlines : as.splitOnP p with
  | nil => exact absurd hlines (List.splitOnP_ne_nil p as)
  | cons line lines => rfl

theorem items_group (hn : 0 < n) (h : ∀ x ∈ buf, p x = false) (hlen : buf.length = n)
    (as : List α) : items p n (buf ++ as) = .group buf :: items p n as := by
  rw [items, splitOnP_append h, items]
  cases hlines : as.splitOnP p with
  | nil => exact absurd hlines (List.splitOnP_ne_nil p as)
  | cons line lines =>
    rw [List.modifyHead_cons, List.map_cons, List.map_cons, groups_append hn hlen, List.map_cons]
    cases lines with
    | nil => rfl
    | cons line' lines => rfl

/-- Element by element or all at once. -/
theorem foldl_feed (h : ∀ x ∈ buf, p x = false) (hlt : buf.length < n) :
    (as.foldl (feed p n) (buf, out)).2 = out ++ items p n (buf ++ as) := by
  induction as generalizing buf out with
  | nil => rw [List.append_nil, items_of_lt h hlt, List.append_nil, List.foldl_nil]
  | cons a as ih =>
    have hn : 0 < n := Nat.lt_of_le_of_lt (Nat.zero_le _) hlt
    have hnil : ∀ x ∈ ([] : List α), p x = false := fun x hx => absurd hx List.not_mem_nil
    rw [List.foldl_cons, feed]
    by_cases ha : p a = true
    · rw [if_pos ha, ih hnil hn, items_delimiter h hlt ha, List.append_assoc]
      rfl
    · have hsnoc : ∀ x ∈ buf ++ [a], p x = false :=
        List.forall_mem_append.mpr ⟨h, List.forall_mem_singleton.mpr (Bool.eq_false_iff.mpr ha)⟩
      have hlength : (buf ++ [a]).length = buf.length + 1 := List.length_append
      rw [if_neg ha, List.append_cons buf a as]
      by_cases hfull : buf.length + 1 = n
      · rw [if_pos hfull, ih hnil hn, items_group hn hsnoc (hlength.trans hfull), List.append_assoc]
        rfl
      · rw [if_neg hfull]
        exact ih hsnoc (by rw [hlength]; omega)

end WixelSdk.Grouping
