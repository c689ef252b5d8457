import Mathlib.Data.List.Basic
import Mathlib.Logic.Function.Basic
import Mathlib.Data.Nat.Notation
import Mathlib.Tactic.SplitIfs

/-!
# Loops with an 8-bit index

`for (; i < bound; i++)` where `i` has 8 bits and `bound` has more. Such a loop ends exactly when
`bound` is at most 255; otherwise `i` wraps around below it for ever. `segment` is what a loop over
a buffer reads.
-/

namespace WixelSdk

variable {α σ : Type*} {body : ℕ → σ → σ} {bound fuel lo mid hi : ℕ}

/-- The state after the loop, or `none` when it has not ended after `fuel` tests. -/
def byteLoop (body : ℕ → σ → σ) (bound : ℕ) : ℕ → UInt8 → σ → Option σ
  | 0, _, _ => none
  | fuel + 1, i, s =>
      if i.toNat < bound then byteLoop body bound fuel (i + 1) (body i.toNat s) else some s

theorem toNat_succ_of_lt {i : UInt8} (hi : i.toNat < 255) : (i + 1).toNat = i.toNat + 1 := by
  rw [UInt8.toNat_add]
  exact Nat.mod_eq_of_lt (by change i.toNat + 1 < 256; omega)

theorem byteLoop_of_lt (hb : bound ≤ 255) (i : UInt8) (s : σ) (hf : bound - i.toNat < fuel) :
    byteLoop body bound fuel i s =
      some ((List.range' i.toNat (bound - i.toNat)).foldl (fun s k => body k s) s) := by
  induction fuel generalizing i s with
  | zero => omega
  | succ fuel ih =>
    rw [byteLoop]
    split_ifs with hi
    · have hn := toNat_succ_of_lt (i := i) (by omega)
      have hcount : bound - i.toNat = bound - (i + 1).toNat + 1 := by omega
      rw [ih _ _ (by omega), hcount, List.range'_succ, List.foldl_cons, hn]
    · have hcount : bound - i.toNat = 0 := by omega
      rw [hcount]
      rfl

theorem byteLoop_eq_foldl (hb : bound ≤ 255) (i : UInt8) (s : σ) :
    byteLoop body bound 256 i s =
      some ((List.range' i.toNat (bound - i.toNat)).foldl (fun s k => body k s) s) :=
  byteLoop_of_lt hb i s (by omega)

theorem byteLoop_eq_none (hb : 255 < bound) (i : UInt8) (s : σ) :
    byteLoop body bound fuel i s = none := by
  induction fuel generalizing i s with
  | zero => rfl
  | succ fuel ih =>
    have hi : i.toNat < bound := Nat.lt_of_lt_of_le i.toNat_lt hb
    rw [byteLoop, if_pos hi, ih]

def segment (mem : ℕ → α) (lo hi : ℕ) : List α := (List.range' lo (hi - lo)).map mem

@[simp] theorem segment_self (mem : ℕ → α) : segment mem lo lo = [] := by
  rw [segment, Nat.sub_self]
  rfl

@[simp] theorem length_segment (mem : ℕ → α) : (segment mem lo hi).length = hi - lo := by
  rw [segment, List.length_map, List.length_range']

theorem segment_append (mem : ℕ → α) (h : lo ≤ mid) (h' : mid ≤ hi) :
    segment mem lo mid ++ segment mem mid hi = segment mem lo hi := by
  have hmid : lo + 1 * (mid - lo) = mid := by omega
  have hlen : (mid - lo) + (hi - mid) = hi - lo := by omega
  have happend := @List.range'_append lo (mid - lo) (hi - mid) 1
  rw [hmid, hlen] at happend
  rw [segment, segment, segment, ← List.map_append, happend]

theorem segment_succ (mem : ℕ → α) (h : lo ≤ hi) :
    segment mem lo (hi + 1) = segment mem lo hi ++ [mem hi] := by
  rw [← segment_append mem h (Nat.le_succ hi)]
  congr 1
  rw [segment, Nat.succ_sub (Nat.le_refl hi), Nat.sub_self]
  rfl

theorem segment_update (mem : ℕ → α) (x : α) (h : lo ≤ hi) :
    segment (Function.update mem hi x) lo (hi + 1) = segment mem lo hi ++ [x] := by
  rw [segment_succ _ h, Function.update_self]
  congr 1
  apply List.map_congr_left
  intro i hi'
  have hlt := List.mem_range'_1.mp hi'
  exact Function.update_of_ne (by omega) _ _

theorem foldl_concat (f : ℕ → α) (is : List ℕ) (acc : List α) :
    is.foldl (fun acc i => acc ++ [f i]) acc = acc ++ is.map f := by
  induction is generalizing acc with
  | nil => exact (List.append_nil acc).symm
  | cons i is ih =>
    rw [List.foldl_cons, ih, List.map_cons, List.append_assoc, List.singleton_append]

theorem byteLoop_segment (mem : ℕ → α) (hb : bound ≤ 255) (i : UInt8) :
    byteLoop (fun k acc => acc ++ [mem k]) bound 256 i [] =
      some (segment mem i.toNat bound) := by
  rw [byteLoop_eq_foldl hb, foldl_concat]
  rfl

end WixelSdk
