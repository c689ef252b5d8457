import Mathlib.Data.List.Basic
import Mathlib.Tactic.SplitIfs

/-!
# Frames in a stream

A frame is an element with the property `header` and the `n` elements after it. `frames` cuts a
stream into its frames; elements between frames are skipped, and so is a frame without its end.
`Framed bs done rest` says the same about a stream that is still arriving: after `bs` the frames
`done` are complete, and `rest` is what there is of the next one.
-/

namespace WixelSdk.Framing

variable {α : Type*} (header : α → Bool) (n : ℕ)

def frames : List α → List (List α)
  | [] => []
  | a :: as =>
    if header a then
      if n ≤ as.length then (a :: as.take n) :: frames (as.drop n) else []
    else frames as
termination_by as => as.length
decreasing_by
  all_goals simp only [List.length_drop, List.length_cons]
  all_goals omega

def Framed (bs : List α) (done : List (List α)) (rest : List α) : Prop :=
  ∀ as, frames header n (bs ++ as) = done ++ frames header n (rest ++ as)

variable {header n} {bs rest : List α} {done : List (List α)} {a : α}

theorem frames_nil : frames header n [] = [] := by rw [frames]

theorem frames_cons_of_not (h : header a = false) (as : List α) :
    frames header n (a :: as) = frames header n as := by
  rw [frames, if_neg (Bool.eq_false_iff.mp h)]

/-- A complete frame comes first. -/
theorem frames_append (h : header a = true) (hlen : rest.length = n) (as : List α) :
    frames header n (a :: rest ++ as) = (a :: rest) :: frames header n as := by
  have hle : n ≤ (rest ++ as).length := by
    rw [List.length_append]
    omega
  rw [List.cons_append, frames, if_pos h, if_pos hle, List.take_left' hlen, List.drop_left' hlen]

theorem frames_of_lt (h : header a = true) (hlen : rest.length < n) :
    frames header n (a :: rest) = [] := by
  rw [frames, if_pos h, if_neg (Nat.not_le.mpr hlen)]

namespace Framed

theorem nil : Framed header n [] [] [] := fun _ => rfl

theorem skip (h : Framed header n bs done []) (ha : header a = false) :
    Framed header n (bs ++ [a]) done [] := by
  intro as
  rw [List.append_assoc, h, List.nil_append, List.singleton_append, frames_cons_of_not ha,
    List.nil_append]

/-- An element of the frame that has begun, or one that begins it. -/
theorem concat (h : Framed header n bs done rest) (a : α) :
    Framed header n (bs ++ [a]) done (rest ++ [a]) := by
  intro as
  rw [List.append_assoc, h, List.append_assoc]

theorem complete (h : Framed header n bs done (a :: rest)) (ha : header a = true)
    (hlen : rest.length = n) : Framed header n bs (done ++ [a :: rest]) [] := by
  intro as
  rw [h, frames_append ha hlen, List.append_assoc, List.nil_append, List.singleton_append]

theorem frames_eq (h : Framed header n bs done rest) :
    frames header n bs = done ++ frames header n rest := by
  have hnil := h []
  rwa [List.append_nil, List.append_nil] at hnil

end Framed

end WixelSdk.Framing
