import Mathlib.Logic.Relation
import Mathlib.Data.List.Basic

/-!
# Data and signals in one stream

A stream of items carries data and, in between, values of a signal. `stamp` pairs each datum with the
value in force, and `normal` leaves out the values that change nothing. A `Reader` hands a stream that
is still arriving to its caller, who asks for data and for the value of the signal by two different
calls. When it is ordered, it passes over a value or a datum only after the caller has been told the
value before, and then data and changes of the value come out in the order of the stream
(`Move.conserved`). In any case the data come out in order (`Move.since`).
-/

namespace WixelSdk.InBand

inductive Item (α β : Type*)
  | data (a : α)
  | signal (v : β)
  deriving DecidableEq, Repr

variable {α β : Type*} {v : β} {xs ys : List (Item α β)}

def Item.data? : Item α β → Option α
  | .data a => some a
  | .signal _ => none

def data (xs : List (Item α β)) : List α := xs.filterMap Item.data?

/-- The value of the signal after a stream. -/
def last (v : β) : List (Item α β) → β
  | [] => v
  | .data _ :: xs => last v xs
  | .signal w :: xs => last w xs

def stamp (v : β) : List (Item α β) → List (α × β)
  | [] => []
  | .data a :: xs => (a, v) :: stamp v xs
  | .signal w :: xs => stamp w xs

def normal [DecidableEq β] (v : β) : List (Item α β) → List (Item α β)
  | [] => []
  | .data a :: xs => .data a :: normal v xs
  | .signal w :: xs => if w = v then normal v xs else .signal w :: normal w xs

theorem last_append : last v (xs ++ ys) = last (last v xs) ys := by
  induction xs generalizing v with
  | nil => rfl
  | cons x xs ih => cases x <;> exact ih

theorem stamp_append : stamp v (xs ++ ys) = stamp v xs ++ stamp (last v xs) ys := by
  induction xs generalizing v with
  | nil => rfl
  | cons x xs ih =>
      cases x with
      | data a => exact congrArg (List.cons (a, v)) ih
      | signal w => exact ih

theorem data_append : data (xs ++ ys) = data xs ++ data ys := List.filterMap_append

theorem map_fst_stamp : (stamp v xs).map Prod.fst = data xs := by
  induction xs generalizing v with
  | nil => rfl
  | cons x xs ih =>
      cases x with
      | data a => exact congrArg (List.cons a) ih
      | signal w => exact ih

theorem stamp_map_data (as : List α) : stamp v (as.map Item.data) = as.map (·, v) := by
  induction as with
  | nil => rfl
  | cons a as ih => exact congrArg (List.cons (a, v)) ih

theorem last_map_data (as : List α) : last v (as.map Item.data) = v := by
  induction as with
  | nil => rfl
  | cons a as ih => exact ih

/-- `accepted` is the stream so far, `unread` the part of it that the reader has not passed over,
`signal` the last value it has, `reported` the last value its caller has been told, and `output` all
that the caller has been told. -/
structure Reader (α β : Type*) where
  accepted : List (Item α β)
  unread : List (Item α β)
  signal : β
  reported : β
  output : List (Item α β)

inductive Move (ordered : Prop) : Reader α β → Reader α β → Prop
  | arrive (r : Reader α β) (xs : List (Item α β)) :
      Move ordered r { r with accepted := r.accepted ++ xs, unread := r.unread ++ xs }
  | take (r : Reader α β) (v : β) (xs : List (Item α β)) (hunread : r.unread = .signal v :: xs)
      (hreported : ordered → r.signal = r.reported) :
      Move ordered r { r with unread := xs, signal := v }
  | read (r : Reader α β) (a : α) (xs : List (Item α β)) (hunread : r.unread = .data a :: xs)
      (hreported : ordered → r.signal = r.reported) :
      Move ordered r { r with unread := xs, output := r.output ++ [.data a] }
  | report (r : Reader α β) : Move ordered r
      { r with reported := r.signal, output := r.output ++ [.signal r.signal] }

variable {ordered : Prop} {r s t : Reader α β}

/-- What the caller has been told since `r` and what is left arrived after `r`, in this order. -/
def Since (r s : Reader α β) : Prop :=
  ∃ arrived told, s.accepted = r.accepted ++ arrived ∧ s.output = r.output ++ told ∧
    (data told ++ data s.unread).Sublist (data arrived)

theorem Since.refl (h : r.unread = []) : Since r r := by
  refine ⟨[], [], (List.append_nil _).symm, (List.append_nil _).symm, ?_⟩
  rw [h]
  exact List.Sublist.refl _

theorem Since.drop (h : Since r s) (haccepted : t.accepted = s.accepted)
    (houtput : t.output = s.output) (hunread : t.unread = []) : Since r t := by
  obtain ⟨arrived, told, hacc, hout, hsub⟩ := h
  refine ⟨arrived, told, haccepted.trans hacc, houtput.trans hout, ?_⟩
  rw [hunread]
  exact (List.Sublist.append_left (List.nil_sublist _) _).trans hsub

theorem Move.since (h : Move ordered s t) (hr : Since r s) : Since r t := by
  obtain ⟨arrived, told, hacc, hout, hsub⟩ := hr
  cases h with
  | arrive xs =>
      refine ⟨arrived ++ xs, told, by simp [hacc], hout, ?_⟩
      simp only [data_append]
      rw [← List.append_assoc]
      exact hsub.append_right _
  | take w xs hunread =>
      refine ⟨arrived, told, hacc, hout, ?_⟩
      rw [hunread] at hsub
      exact hsub
  | read a xs hunread =>
      refine ⟨arrived, told ++ [.data a], hacc, by simp [hout], ?_⟩
      rw [hunread] at hsub
      rw [data_append, List.append_assoc]
      exact hsub
  | report =>
      refine ⟨arrived, told ++ [.signal s.signal], hacc, by simp [hout], ?_⟩
      have hnone : data [(.signal s.signal : Item α β)] = [] := rfl
      rw [data_append, hnone, List.append_nil]
      exact hsub

theorem Since.of_moves (h : Relation.ReflTransGen (Move ordered) s t)
    (hr : Since r s) : Since r t := by
  induction h with
  | refl => exact hr
  | tail _ hm ih => exact hm.since ih

variable [DecidableEq β]

theorem normal_append : normal v (xs ++ ys) = normal v xs ++ normal (last v xs) ys := by
  induction xs generalizing v with
  | nil => rfl
  | cons x xs ih =>
      cases x with
      | data a => exact congrArg (List.cons (.data a)) ih
      | signal w =>
          simp only [List.cons_append, normal, last]
          split_ifs with hw
          · rw [ih, hw]
          · rw [ih, List.cons_append]

theorem stamp_normal : stamp v (normal v xs) = stamp v xs := by
  induction xs generalizing v with
  | nil => rfl
  | cons x xs ih =>
      cases x with
      | data a => exact congrArg (List.cons (a, v)) ih
      | signal w =>
          simp only [normal, stamp]
          split_ifs with hw
          · rw [ih, hw]
          · exact ih

theorem data_normal : data (normal v xs) = data xs := by
  rw [← map_fst_stamp (v := v), stamp_normal, map_fst_stamp]

/-- A value repeated at the beginning changes nothing. -/
theorem normal_signal_self : normal v (.signal v :: xs) = normal v xs := if_pos rfl

/-- From the value `v` on, the stream is what the caller has been told, followed by what is left. -/
structure Conserved (v : β) (r : Reader α β) : Prop where
  items : normal v r.accepted = normal v r.output ++ normal r.reported (.signal r.signal :: r.unread)
  last : last v r.accepted = last r.signal r.unread
  reported : r.reported = InBand.last v r.output

theorem Move.conserved (h : Move ordered r s) (ho : ordered) (hr : Conserved v r) :
    Conserved v s := by
  cases h with
  | arrive xs =>
      refine ⟨?_, ?_, hr.reported⟩
      · have hlast : InBand.last r.reported (.signal r.signal :: r.unread) =
            InBand.last v r.accepted := hr.last.symm
        change normal v (r.accepted ++ xs) =
          normal v r.output ++ normal r.reported (.signal r.signal :: r.unread ++ xs)
        rw [normal_append, normal_append, hr.items, hlast, List.append_assoc]
      · change InBand.last v (r.accepted ++ xs) = InBand.last r.signal (r.unread ++ xs)
        rw [last_append, last_append, hr.last]
  | take w xs hunread hreported =>
      refine ⟨?_, ?_, hr.reported⟩
      · have hitems := hr.items
        rw [hunread, hreported ho, normal_signal_self] at hitems
        exact hitems
      · have hlast := hr.last
        rw [hunread] at hlast
        exact hlast
  | read a xs hunread hreported =>
      refine ⟨?_, ?_, ?_⟩
      · have hitems := hr.items
        rw [hunread, hreported ho, normal_signal_self] at hitems
        change _ = normal v (r.output ++ [.data a]) ++ normal r.reported (.signal r.signal :: xs)
        rw [normal_append, hreported ho, normal_signal_self, hitems, List.append_assoc]
        rfl
      · have hlast := hr.last
        rw [hunread] at hlast
        exact hlast
      · change r.reported = InBand.last v (r.output ++ [.data a])
        rw [last_append, ← hr.reported]
        rfl
  | report =>
      refine ⟨?_, hr.last, ?_⟩
      · change normal v r.accepted = normal v (r.output ++ [.signal r.signal]) ++
          normal r.signal (.signal r.signal :: r.unread)
        have hcons : (.signal r.signal :: r.unread : List (Item α β)) =
          [.signal r.signal] ++ r.unread := rfl
        rw [normal_signal_self, normal_append, ← hr.reported, hr.items, hcons, normal_append,
          List.append_assoc]
        rfl
      · change r.signal = InBand.last v (r.output ++ [.signal r.signal])
        rw [last_append]
        rfl

theorem Conserved.of_moves (h : Relation.ReflTransGen (Move ordered) r s) (ho : ordered)
    (hr : Conserved v r) : Conserved v s := by
  induction h with
  | refl => exact hr
  | tail _ hm ih => exact hm.conserved ho ih

/-- What the caller has been told is a beginning of the stream. -/
theorem Conserved.output_prefix (hr : Conserved v r) : normal v r.output <+: normal v r.accepted :=
  ⟨_, hr.items.symm⟩

/-- Each datum came out while its own value of the signal was the last one told. -/
theorem Conserved.stamp_prefix (hr : Conserved v r) : stamp v r.output <+: stamp v r.accepted := by
  have hstamp := congrArg (stamp v) hr.items
  rw [stamp_append, stamp_normal, stamp_normal] at hstamp
  exact ⟨_, hstamp.symm⟩

/-- No datum is lost. -/
theorem Conserved.data_eq (hr : Conserved v r) :
    data r.accepted = data r.output ++ data r.unread := by
  have hdata := congrArg data hr.items
  rw [data_append, data_normal, data_normal, data_normal] at hdata
  exact hdata

end WixelSdk.InBand
