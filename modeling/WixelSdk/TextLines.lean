import Mathlib.Data.List.Basic
import Mathlib.Data.List.Infix
import Mathlib.Algebra.Group.Nat.Defs
import Mathlib.Data.Nat.Init
import Mathlib.Tactic.SplitIfs

/-!
# Lines of text and printed numbers

`lines` are the complete lines of a stream, without their ends: what a reader has of it who waits for
the end of a line. `cut` takes a line apart at known widths. The numbers are those of `printf`:
decimal with blanks in front, and two hexadecimal digits for a byte.
-/

namespace WixelSdk.TextLines

/-! ### Lines -/

section Lines

variable {α : Type*}

def unlines (d : α) (ls : List (List α)) : List α := ls.flatMap (· ++ [d])

def cut : List ℕ → List α → List (List α)
  | [], _ => []
  | w :: ws, as => as.take w :: cut ws (as.drop w)

theorem cut_flatten (fields : List (List α)) (as : List α) :
    cut (fields.map List.length) (fields.flatten ++ as) = fields := by
  induction fields with
  | nil => rfl
  | cons f fields ih =>
      rw [List.map_cons, List.flatten_cons, List.append_assoc, cut, List.take_left,
        List.drop_left, ih]

/-- Two elements for each of a list. -/
theorem getElem?_flatMap_pair {β : Type*} (f g : β → α) (xs : List β) (rest : List α) {i : ℕ}
    (hi : i < xs.length) :
    (xs.flatMap (fun x => [f x, g x]) ++ rest)[2 * i]? = some (f xs[i]) ∧
      (xs.flatMap (fun x => [f x, g x]) ++ rest)[2 * i + 1]? = some (g xs[i]) := by
  induction xs generalizing i with
  | nil => cases hi
  | cons x xs ih =>
      cases i with
      | zero => exact ⟨rfl, rfl⟩
      | succ i => exact ih (Nat.lt_of_succ_lt_succ hi)

variable [DecidableEq α]

def lines (d : α) : List α → List (List α)
  | [] => []
  | a :: as =>
    if a = d then [] :: lines d as
    else
      match lines d as with
      | [] => []
      | l :: ls => (a :: l) :: ls

variable {d : α} {l as : List α} {ls : List (List α)}

theorem lines_of_not_mem (h : d ∉ as) : lines d as = [] := by
  induction as with
  | nil => rfl
  | cons a as ih =>
      rw [List.mem_cons, not_or] at h
      rw [lines, if_neg (Ne.symm h.1), ih h.2]

theorem lines_line (h : d ∉ l) (as : List α) : lines d (l ++ [d] ++ as) = l :: lines d as := by
  induction l with
  | nil => exact if_pos rfl
  | cons a l ih =>
      rw [List.mem_cons, not_or] at h
      rw [List.cons_append, List.cons_append, lines, if_neg (Ne.symm h.1), ih h.2]

/-- Whoever has read a part of a text has the first of its lines. -/
theorem lines_prefix (h : ∀ l ∈ ls, d ∉ l) (has : as <+: unlines d ls) : lines d as <+: ls := by
  induction ls generalizing as with
  | nil =>
      obtain rfl := List.prefix_nil.mp has
      exact List.prefix_rfl
  | cons l ls ih =>
      obtain ⟨hl, hls⟩ := List.forall_mem_cons.mp h
      change as <+: l ++ [d] ++ unlines d ls at has
      rcases List.prefix_or_prefix_of_prefix has (List.prefix_append (l ++ [d]) _) with hle | ⟨as, rfl⟩
      · rcases List.prefix_concat_iff.mp hle with rfl | hshort
        · have hline := lines_line hl []
          rw [List.append_nil] at hline
          rw [hline]
          exact List.cons_prefix_cons.mpr ⟨rfl, List.nil_prefix⟩
        · rw [lines_of_not_mem fun hd => hl (hshort.subset hd)]
          exact List.nil_prefix
      · rw [lines_line hl]
        exact List.cons_prefix_cons.mpr ⟨rfl, ih hls ((List.prefix_append_right_inj _).mp has)⟩

end Lines

/-! ### Numbers -/

def ascii (c : Char) : UInt8 := UInt8.ofNat c.toNat

def text (s : String) : List UInt8 := s.toList.map ascii

/-- The digits of a number with blanks in front. -/
def padded (blanks n : ℕ) : List UInt8 :=
  (List.replicate blanks ' ' ++ Nat.toDigits 10 n).map ascii

/-- A decimal number with blanks in front, if it has fewer digits than the width. -/
def decimal (width n : ℕ) : List UInt8 := padded (width - (Nat.toDigits 10 n).length) n

def integer (width : ℕ) (i : ℤ) : List UInt8 :=
  if i < 0 then
    List.replicate (width - (Nat.toDigits 10 i.natAbs).length - 1) 32 ++ 45 :: padded 0 i.natAbs
  else decimal width i.natAbs

def readDecimal (bytes : List UInt8) : ℕ :=
  bytes.foldl (fun n b => if b = 32 then n else 10 * n + (b.toNat - 48)) 0

def readInteger (bytes : List UInt8) : ℤ :=
  if 45 ∈ bytes then -(readDecimal (bytes.filter (· ≠ 45)) : ℤ) else readDecimal bytes

theorem digit_range {n : ℕ} {c : Char} (hc : c ∈ Nat.toDigits 10 n) :
    48 ≤ c.toNat ∧ c.toNat ≤ 57 := by
  have hdigit := Nat.isDigit_of_mem_toDigits (by decide) (by decide) hc
  simpa [Char.isDigit, UInt32.le_iff_toNat_le] using hdigit

theorem ascii_toNat {n : ℕ} {c : Char} (hc : c ∈ Nat.toDigits 10 n) : (ascii c).toNat = c.toNat := by
  have hrange := digit_range hc
  exact (UInt8.toNat_ofNat' ..).trans (Nat.mod_eq_of_lt (by omega))

theorem ascii_ne {n : ℕ} {c : Char} (hc : c ∈ Nat.toDigits 10 n) {b : UInt8} (hb : b.toNat < 48) :
    ascii c ≠ b := by
  rintro rfl
  have hrange := digit_range hc
  rw [ascii_toNat hc] at hb
  omega

theorem not_mem_padded {b : UInt8} (hb : b.toNat < 48) (hblank : b ≠ 32) (blanks n : ℕ) :
    b ∉ padded blanks n := by
  intro h
  obtain ⟨c, hc, rfl⟩ := List.mem_map.mp h
  rcases List.mem_append.mp hc with hspace | hdigit
  · rw [List.eq_of_mem_replicate hspace] at hblank
    exact hblank rfl
  · exact ascii_ne hdigit hb rfl

theorem length_padded (blanks n : ℕ) :
    (padded blanks n).length = blanks + (Nat.toDigits 10 n).length := by
  rw [padded, List.length_map, List.length_append, List.length_replicate]

theorem length_decimal {width n : ℕ} (hwidth : 0 < width) (hn : n < 10 ^ width) :
    (decimal width n).length = width := by
  have hdigits := (Nat.length_toDigits_le_iff (by decide) hwidth).mpr hn
  rw [decimal, length_padded]
  omega

theorem length_integer_neg {width : ℕ} {i : ℤ} (hi : i < 0) (hwidth : 1 < width)
    (hn : i.natAbs < 10 ^ (width - 1)) : (integer width i).length = width := by
  have hdigits := (Nat.length_toDigits_le_iff (by decide) (Nat.sub_pos_of_lt hwidth)).mpr hn
  rw [integer, if_pos hi, List.length_append, List.length_replicate, List.length_cons,
    length_padded]
  omega

theorem readDecimal_padded (blanks n : ℕ) : readDecimal (padded blanks n) = n := by
  have hblanks : ∀ k, readDecimal ((List.replicate k ' ').map ascii) = 0 := by
    intro k
    induction k with
    | zero => rfl
    | succ k ih => exact ih
  have hdigits : ((Nat.toDigits 10 n).map ascii).foldl
      (fun n b => if b = 32 then n else 10 * n + (b.toNat - 48)) 0 =
      Nat.ofDigitChars 10 (Nat.toDigits 10 n) 0 := by
    rw [List.foldl_map, Nat.ofDigitChars_eq_foldl]
    apply List.foldl_ext
    intro k c hc
    rw [if_neg (ascii_ne hc (by decide)), ascii_toNat hc]
    rfl
  unfold readDecimal at hblanks ⊢
  rw [padded, List.map_append, List.foldl_append, hblanks, hdigits]
  exact Nat.ofDigitChars_toDigits (by decide) (by decide)

theorem readDecimal_decimal (width n : ℕ) : readDecimal (decimal width n) = n :=
  readDecimal_padded _ n

theorem readInteger_integer (width : ℕ) (i : ℤ) : readInteger (integer width i) = i := by
  have hsign : ∀ blanks, 45 ∉ padded blanks i.natAbs :=
    fun blanks => not_mem_padded (by decide) (by decide) blanks _
  have hfilter : ∀ bytes : List UInt8, 45 ∉ bytes → bytes.filter (· ≠ 45) = bytes := by
    intro bytes h
    apply List.filter_eq_self.mpr
    intro b hb
    exact decide_eq_true fun he => h (he ▸ hb)
  by_cases hi : i < 0
  · have hblanks : ∀ k bytes, readDecimal (List.replicate k 32 ++ bytes) = readDecimal bytes := by
      intro k bytes
      induction k with
      | zero => rfl
      | succ k ih => exact ih
    rw [integer, if_pos hi, readInteger, if_pos (List.mem_append_right _ List.mem_cons_self),
      List.filter_append, hfilter _ (fun h => by cases List.eq_of_mem_replicate h),
      List.filter_cons_of_neg (by decide), hfilter _ (hsign 0), hblanks, readDecimal_padded]
    omega
  · rw [integer, if_neg hi, readInteger, decimal, if_neg (hsign _), readDecimal_padded]
    omega

def hexDigit (nibble : ℕ) : UInt8 :=
  if nibble ≤ 9 then 48 + UInt8.ofNat nibble else 65 + UInt8.ofNat (nibble - 10)

def readHexDigit (digit : UInt8) : ℕ := if digit ≤ 57 then digit.toNat - 48 else digit.toNat - 55

def hex (b : UInt8) : List UInt8 := [hexDigit (b.toNat / 16), hexDigit (b.toNat % 16)]

def readHex : List UInt8 → List UInt8
  | high :: low :: digits =>
      UInt8.ofNat (16 * readHexDigit high + readHexDigit low) :: readHex digits
  | _ => []

theorem readHexDigit_hexDigit : ∀ nibble < 16, readHexDigit (hexDigit nibble) = nibble := by decide

theorem readHex_hex (bytes digits : List UInt8) :
    readHex (bytes.flatMap hex ++ digits) = bytes ++ readHex digits := by
  induction bytes with
  | nil => rfl
  | cons b bytes ih =>
      have hb := b.toNat_lt
      have hhigh := readHexDigit_hexDigit (b.toNat / 16) (by omega)
      have hlow := readHexDigit_hexDigit (b.toNat % 16) (by omega)
      change UInt8.ofNat (16 * readHexDigit (hexDigit (b.toNat / 16)) +
        readHexDigit (hexDigit (b.toNat % 16))) :: readHex (bytes.flatMap hex ++ digits) = _
      rw [ih, hhigh, hlow, Nat.div_add_mod]
      exact congrArg (· :: _) (UInt8.ofNat_toNat)

/-! ### What is not in a number -/

theorem not_mem_decimal (width n : ℕ) : 10 ∉ decimal width n :=
  not_mem_padded (by decide) (by decide) _ n

theorem not_mem_integer (width : ℕ) (i : ℤ) : 10 ∉ integer width i := by
  intro h
  unfold integer at h
  split_ifs at h
  · rcases List.mem_append.mp h with hblank | hrest
    · cases List.eq_of_mem_replicate hblank
    · rcases List.mem_cons.mp hrest with hsign | hdigits
      · cases hsign
      · exact not_mem_padded (by decide) (by decide) 0 _ hdigits
  · exact not_mem_decimal _ _ h

theorem hexDigit_ne : ∀ nibble < 16, hexDigit nibble ≠ 10 := by decide

theorem not_mem_hex (b : UInt8) : 10 ∉ hex b := by
  have hb := b.toNat_lt
  intro h
  rcases List.mem_cons.mp h with he | h
  · exact hexDigit_ne _ (by omega) he.symm
  · exact hexDigit_ne _ (by omega) (List.mem_singleton.mp h).symm

end WixelSdk.TextLines
