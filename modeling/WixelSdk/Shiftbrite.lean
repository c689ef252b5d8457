import WixelSdk.Grouping
import Mathlib.Data.Nat.Bitwise
import Mathlib.Data.UInt
import Mathlib.Tactic.IntervalCases

/-!
# The ShiftBrite app

`shiftbrite.c` turns a stream of characters into colors for a chain of LED modules. The modules take
a bit whenever the clock pin rises, and show what they have taken when the latch pin rises.
-/

namespace WixelSdk.Shiftbrite
open Grouping

/-- A rising edge of the clock pin, with the level of the data pin, or one of the latch pin. -/
inductive Edge
  | clock (data : Bool)
  | latch
  deriving DecidableEq, Repr

/-- The variables and pins, with the rising edges so far. -/
structure App where
  inputBits : UInt8
  hexCharsPerColor : UInt8
  shift : Int8
  rgb : ℕ → UInt8
  i : UInt8
  latch : Bool
  data : Bool
  clock : Bool
  disable : Bool
  edges : List Edge

/-- The static variables, and the pins after a reset of the chip. -/
def powerUp : App where
  inputBits := 0
  hexCharsPerColor := 0
  shift := 0
  rgb := fun _ => 0
  i := 0
  latch := true
  data := true
  clock := true
  disable := true
  edges := []

def hexCharToByte (c : UInt8) : UInt8 :=
  if c ≥ 48 ∧ c ≤ 57 then c - 48
  else if c ≥ 97 ∧ c ≤ 102 then c - 97 + 10
  else if c ≥ 65 ∧ c ≤ 70 then c - 65 + 10
  else 0

def hex (s : ℕ → UInt8) (len : UInt8) : UInt16 :=
  (List.range len.toNat).foldl (fun ret i => (ret <<< 4) + (hexCharToByte (s i)).toUInt16) 0

def restrictRange (value min max : Int32) : Int32 :=
  if value < min then min else if value > max then max else value

namespace App

variable (s : App)

/-! ### The pins -/

def setData (value : Bool) : App := { s with data := value }

def setDisable (value : Bool) : App := { s with disable := value }

def setClock (value : Bool) : App :=
  { s with
    clock := value
    edges := if value && !s.clock then s.edges ++ [.clock s.data] else s.edges }

def setLatch (value : Bool) : App :=
  { s with
    latch := value
    edges := if value && !s.latch then s.edges ++ [.latch] else s.edges }

def toggleLatch : App := ((s.setLatch true).setLatch false).setDisable false

def sendBit (value : Bool) : App := ((s.setData value).setClock true).setClock false

def sendColor (mask color : UInt16) (s : App) : App :=
  if mask ≠ 0 then sendColor (mask >>> 1) color (s.sendBit (mask &&& color != 0)) else s
termination_by mask.toNat
decreasing_by
  have hmask : mask.toNat ≠ 0 := fun h => ‹mask ≠ 0› (UInt16.toNat_inj.mp h)
  change mask.toNat >>> 1 < mask.toNat
  rw [Nat.shiftRight_one]
  omega

def sendRGB (r g b : UInt16) : App :=
  let s := (s.sendBit false).sendBit false
  let s := sendColor 512 b s
  let s := sendColor 512 r s
  sendColor 512 g s

/-! ### The parser -/

def rgbAt (offset : UInt8) (k : ℕ) : UInt8 := s.rgb (offset.toNat + k)

/-- A complete group is in `rgb`. -/
def sendGroup : App :=
  let h := s.hexCharsPerColor
  if s.shift > 0 then
    let left := UInt16.ofNat s.shift.toInt.toNat
    s.sendRGB (hex (s.rgbAt 0) h <<< left) (hex (s.rgbAt h) h <<< left)
      (hex (s.rgbAt (h * 2)) h <<< left)
  else
    let right := UInt16.ofNat (-s.shift.toInt).toNat
    s.sendRGB (hex (s.rgbAt 0) h >>> right) (hex (s.rgbAt h) h >>> right)
      (hex (s.rgbAt (h * 2)) h >>> right)

def shiftbriteProcessByte (c : UInt8) : App :=
  if c = 13 ∨ c = 10 then { s with i := 0 }.toggleLatch
  else
    let s := { s with rgb := Function.update s.rgb s.i.toNat c, i := s.i + 1 }
    if s.i = s.hexCharsPerColor * 3 then { s with i := 0 }.sendGroup else s

def shiftbriteInit (paramInputBits : Int32) : App :=
  let inputBits := (restrictRange paramInputBits 1 16).toUInt32.toUInt8
  let s := { s with
    inputBits := inputBits
    hexCharsPerColor := ((inputBits - 1) >>> 2) + 1
    shift := 10 - inputBits.toInt8 }
  ((s.setDisable true).setClock false).setLatch false

end App

/-! ### What a stream of characters stands for -/

def isLineEnd (c : UInt8) : Bool := c == 13 || c == 10

def hexValue (digits : List UInt8) : ℕ :=
  digits.foldl (fun v c => 16 * v + (hexCharToByte c).toNat) 0

/-- A color of `inputBits` bits as one of 10 bits. -/
def scale (inputBits v : ℕ) : ℕ :=
  if inputBits ≤ 10 then v * 2 ^ (10 - inputBits) else v / 2 ^ (inputBits - 10)

def tenBits (v : ℕ) : List Bool := (List.range 10).reverse.map v.testBit

/-- The bits of the color at a place in a group. -/
def colorBits (inputBits h : ℕ) (group : List UInt8) (place : ℕ) : List Bool :=
  tenBits (scale inputBits (hexValue ((group.drop (place * h)).take h)))

/-- Two zeros, and the colors blue, red and green of a group with red, green and blue. -/
def groupBits (inputBits h : ℕ) (group : List UInt8) : List Bool :=
  [false, false] ++ colorBits inputBits h group 2 ++ colorBits inputBits h group 0 ++
    colorBits inputBits h group 1

def itemEdges (inputBits h : ℕ) : Item UInt8 → List Edge
  | .group g => (groupBits inputBits h g).map .clock
  | .delimiter => [.latch]

/-! ### Bits -/

namespace App

variable {s : App}

theorem sendBit_eq (h : s.clock = false) (value : Bool) :
    s.sendBit value = { s with data := value, edges := s.edges ++ [.clock value] } := by
  unfold sendBit setData setClock
  rw [h]
  rfl

theorem foldl_sendBit (h : s.clock = false) (bits : List Bool) : ∃ d,
    bits.foldl sendBit s = { s with data := d, edges := s.edges ++ bits.map .clock } := by
  induction bits generalizing s with
  | nil => exact ⟨s.data, by rw [List.map_nil, List.append_nil]; rfl⟩
  | cons value bits ih =>
    rw [List.foldl_cons, sendBit_eq h]
    obtain ⟨d, hd⟩ := ih (s := { s with data := value, edges := s.edges ++ [.clock value] }) h
    rw [hd, List.map_cons, List.append_assoc]
    exact ⟨d, rfl⟩

theorem and_two_pow_ne_zero {k : ℕ} (hk : k < 16) (color : UInt16) :
    ((.ofNat (2 ^ k) : UInt16) &&& color != 0) = color.toNat.testBit k := by
  have hmask : (UInt16.ofNat (2 ^ k)).toNat = 2 ^ k :=
    Nat.mod_eq_of_lt (Nat.pow_lt_pow_right (by decide) hk)
  have hand : ((.ofNat (2 ^ k) : UInt16) &&& color).toNat =
      2 ^ k * (color.toNat.testBit k).toNat := by
    rw [UInt16.toNat_and, hmask, Nat.two_pow_and]
  cases hbit : color.toNat.testBit k with
  | false =>
    rw [hbit] at hand
    exact bne_eq_false_iff_eq.mpr (UInt16.toNat_inj.mp hand)
  | true =>
    rw [hbit, Bool.toNat_true, Nat.mul_one] at hand
    refine bne_iff_ne.mpr fun hzero => ?_
    rw [hzero] at hand
    exact absurd hand.symm (Nat.ne_of_gt (Nat.two_pow_pos k))

/-- By induction on the bit of the mask. -/
theorem sendColor_two_pow {k : ℕ} (hk : k < 16) (color : UInt16) (s : App) :
    sendColor (.ofNat (2 ^ k)) color s =
      ((List.range (k + 1)).reverse.map color.toNat.testBit).foldl sendBit s := by
  induction k generalizing s with
  | zero =>
    rw [sendColor, if_pos (by decide), and_two_pow_ne_zero hk, sendColor, if_neg (by decide)]
    rfl
  | succ k ih =>
    have hmask : (UInt16.ofNat (2 ^ (k + 1))).toNat = 2 ^ (k + 1) :=
      Nat.mod_eq_of_lt (Nat.pow_lt_pow_right (by decide) hk)
    have hne : (.ofNat (2 ^ (k + 1)) : UInt16) ≠ 0 := fun h => by
      rw [h] at hmask
      exact absurd hmask.symm (Nat.ne_of_gt (Nat.two_pow_pos (k + 1)))
    have hhalf : (.ofNat (2 ^ (k + 1)) : UInt16) >>> 1 = .ofNat (2 ^ k) := by
      refine UInt16.toNat_inj.mp ?_
      rw [UInt16.toNat_shiftRight, hmask]
      change 2 ^ (k + 1) >>> 1 = 2 ^ k % 2 ^ 16
      rw [Nat.shiftRight_one, Nat.pow_succ, Nat.mul_div_cancel _ (by decide),
        Nat.mod_eq_of_lt (Nat.pow_lt_pow_right (by decide) (Nat.lt_of_succ_lt hk))]
    rw [sendColor, if_pos hne, and_two_pow_ne_zero hk, hhalf, ih (Nat.lt_of_succ_lt hk),
      List.range_succ (n := k + 1), List.reverse_append, List.reverse_singleton,
      List.singleton_append, List.map_cons, List.foldl_cons]

theorem sendColor_eq (color : UInt16) (s : App) :
    sendColor 512 color s = (tenBits color.toNat).foldl sendBit s :=
  sendColor_two_pow (k := 9) (by decide) color s

theorem sendRGB_eq (h : s.clock = false) (r g b : UInt16) : ∃ d, s.sendRGB r g b =
    { s with
      data := d
      edges := s.edges ++ ([false, false] ++ tenBits b.toNat ++ tenBits r.toNat ++
        tenBits g.toNat).map .clock } := by
  have hfold : s.sendRGB r g b = ([false, false] ++ tenBits b.toNat ++ tenBits r.toNat ++
      tenBits g.toNat).foldl sendBit s := by
    rw [List.foldl_append, List.foldl_append, List.foldl_append, ← sendColor_eq, ← sendColor_eq,
      ← sendColor_eq]
    rfl
  rw [hfold]
  exact foldl_sendBit h _

theorem toggleLatch_eq (h : s.latch = false) :
    s.toggleLatch = { s with disable := false, edges := s.edges ++ [.latch] } := by
  unfold toggleLatch setLatch setDisable
  rw [h]
  rfl

end App

/-! ### Colors -/

theorem hexCharToByte_lt (c : UInt8) : (hexCharToByte c).toNat < 16 := by
  have h : ∀ n < 256, (hexCharToByte (.ofNat n)).toNat < 16 := by decide +kernel
  rw [← UInt8.ofNat_toNat (x := c)]
  exact h c.toNat c.toNat_lt

theorem hexValue_snoc (digits : List UInt8) (c : UInt8) :
    hexValue (digits ++ [c]) = 16 * hexValue digits + (hexCharToByte c).toNat := by
  rw [hexValue, List.foldl_append]
  rfl

theorem hexValue_lt (digits : List UInt8) : hexValue digits < 16 ^ digits.length := by
  induction digits using List.reverseRecOn with
  | nil => exact Nat.one_pos
  | append_singleton digits c ih =>
    have hc := hexCharToByte_lt c
    rw [hexValue_snoc, List.length_append, List.length_singleton, Nat.pow_succ]
    omega

/-- Up to four digits fit into 16 bits. -/
theorem hex_toNat (digits : List UInt8) (hlength : digits.length ≤ 4) {s : ℕ → UInt8}
    (hs : ∀ k < digits.length, s k = digits.getD k 0) {len : UInt8}
    (hlen : len.toNat = digits.length) : (hex s len).toNat = hexValue digits := by
  unfold hex
  rw [hlen]
  clear hlen
  induction digits using List.reverseRecOn with
  | nil => rfl
  | append_singleton digits c ih =>
    rw [List.length_append, List.length_singleton] at hlength hs
    have hdigits := ih (by omega) fun k hk => by
      rw [hs k (by omega), List.getD_append _ _ _ _ hk]
    have hlast : s digits.length = c := by
      rw [hs digits.length (Nat.lt_succ_self _), List.getD_append_right _ _ _ _ (Nat.le_refl _),
        Nat.sub_self]
      rfl
    have hlt := hexValue_lt digits
    have hpow : 16 ^ digits.length ≤ 16 ^ 3 := Nat.pow_le_pow_right (by decide) (by omega)
    have hc := hexCharToByte_lt c
    rw [List.length_append, List.length_singleton, List.range_succ, List.foldl_append,
      List.foldl_cons, List.foldl_nil, hlast, hexValue_snoc, UInt16.toNat_add,
      UInt16.toNat_shiftLeft, hdigits, UInt8.toNat_toUInt16]
    change ((hexValue digits <<< 4) % 2 ^ 16 + _) % 2 ^ 16 = _
    rw [Nat.shiftLeft_eq]
    omega

theorem tenBits_mod (v : ℕ) : tenBits (v % 2 ^ 16) = tenBits v := by
  refine List.map_congr_left fun k hk => ?_
  have hlt := List.mem_range.mp (List.mem_reverse.mp hk)
  rw [Nat.testBit_mod_two_pow, decide_eq_true (by omega : k < 16), Bool.true_and]

theorem scale_lt {inputBits v : ℕ} (hv : v < 2 ^ inputBits) : scale inputBits v < 2 ^ 10 := by
  unfold scale
  split_ifs with h
  · calc v * 2 ^ (10 - inputBits) < 2 ^ inputBits * 2 ^ (10 - inputBits) :=
        Nat.mul_lt_mul_of_pos_right hv (Nat.two_pow_pos _)
      _ = 2 ^ 10 := by rw [← Nat.pow_add, Nat.add_sub_cancel' h]
  · refine Nat.div_lt_of_lt_mul ?_
    rwa [← Nat.pow_add, Nat.sub_add_cancel (Nat.le_of_not_le h)]

theorem tenBits_shiftLeft {inputBits : ℕ} (h : inputBits ≤ 10) (v : UInt16) :
    tenBits (v <<< UInt16.ofNat (10 - inputBits)).toNat = tenBits (scale inputBits v.toNat) := by
  have hshift : (UInt16.ofNat (10 - inputBits)).toNat % 16 = 10 - inputBits := by
    change (10 - inputBits) % 2 ^ 16 % 16 = _
    omega
  rw [UInt16.toNat_shiftLeft, hshift, tenBits_mod, Nat.shiftLeft_eq, scale, if_pos h]

theorem tenBits_shiftRight {inputBits : ℕ} (h : 10 ≤ inputBits) (h' : inputBits ≤ 16) (v : UInt16) :
    tenBits (v >>> UInt16.ofNat (inputBits - 10)).toNat = tenBits (scale inputBits v.toNat) := by
  have hshift : (UInt16.ofNat (inputBits - 10)).toNat % 16 = inputBits - 10 := by
    change (inputBits - 10) % 2 ^ 16 % 16 = _
    omega
  rw [UInt16.toNat_shiftRight, hshift, Nat.shiftRight_eq_div_pow, scale]
  split_ifs with hten
  · rw [Nat.le_antisymm hten h, Nat.sub_self, Nat.pow_zero, Nat.div_one, Nat.mul_one]
  · rfl

/-! ### Groups -/

/-- What `shiftbriteInit` computes for `inputBits` bits. -/
structure Configured (inputBits h : ℕ) (s : App) : Prop where
  bits : 1 ≤ inputBits ∧ inputBits ≤ 16
  digits : h = (inputBits - 1) / 4 + 1
  hexCharsPerColor : s.hexCharsPerColor.toNat = h
  shift : s.shift.toInt = 10 - (inputBits : ℤ)

namespace Configured

variable {inputBits h : ℕ} {s t : App}

theorem digits_le (hc : Configured inputBits h s) : 1 ≤ h ∧ h ≤ 4 := by
  have hdigits := hc.digits
  have hbits := hc.bits
  omega

theorem congr (hc : Configured inputBits h s) (hhex : t.hexCharsPerColor = s.hexCharsPerColor)
    (hshift : t.shift = s.shift) : Configured inputBits h t :=
  ⟨hc.bits, hc.digits, by rw [hhex, hc.hexCharsPerColor], by rw [hshift, hc.shift]⟩

/-- The digits of a color in `rgb`. -/
theorem hex_rgbAt (hc : Configured inputBits h s) {g : List UInt8} (hlength : g.length = 3 * h)
    (hrgb : ∀ k < g.length, s.rgb k = g.getD k 0) (offset : UInt8) (place : ℕ)
    (hplace : place < 3) (hoffset : offset.toNat = place * h) :
    (hex (s.rgbAt offset) s.hexCharsPerColor).toNat =
      hexValue ((g.drop (place * h)).take h) := by
  have hmul : (place + 1) * h ≤ 3 * h := Nat.mul_le_mul_right h hplace
  rw [Nat.succ_mul] at hmul
  have hlen : ((g.drop (place * h)).take h).length = h := by
    rw [List.length_take, List.length_drop]
    omega
  refine hex_toNat _ (by rw [hlen]; exact hc.digits_le.2) (fun k hk => ?_)
    (hc.hexCharsPerColor.trans hlen.symm)
  rw [hlen] at hk
  rw [App.rgbAt, hoffset, hrgb _ (by omega), List.getD_eq_getElem?_getD, List.getD_eq_getElem?_getD,
    List.getElem?_take_of_lt hk, List.getElem?_drop]

/-- The colors of a group, shifted by `f` to 10 bits. -/
theorem sendRGB_group (hc : Configured inputBits h s) (hclock : s.clock = false) {g : List UInt8}
    (hlength : g.length = 3 * h) (hrgb : ∀ k < g.length, s.rgb k = g.getD k 0)
    {f : UInt16 → UInt16} (hf : ∀ v, tenBits (f v).toNat = tenBits (scale inputBits v.toNat)) :
    ∃ d, s.sendRGB (f (hex (s.rgbAt 0) s.hexCharsPerColor))
        (f (hex (s.rgbAt s.hexCharsPerColor) s.hexCharsPerColor))
        (f (hex (s.rgbAt (s.hexCharsPerColor * 2)) s.hexCharsPerColor)) =
      { s with
        data := d
        edges := s.edges ++ (groupBits inputBits h g).map .clock } := by
  have hdigits := hc.digits_le
  have hhex := hc.hexCharsPerColor
  have hred := hc.hex_rgbAt hlength hrgb 0 0 (by decide) (by simp)
  have hgreen := hc.hex_rgbAt hlength hrgb s.hexCharsPerColor 1 (by decide) (by omega)
  have hblue := hc.hex_rgbAt hlength hrgb (s.hexCharsPerColor * 2) 2 (by decide)
    (by rw [UInt8.toNat_mul, hhex]; change h * 2 % 2 ^ 8 = _; omega)
  obtain ⟨d, hd⟩ := App.sendRGB_eq hclock (f (hex (s.rgbAt 0) s.hexCharsPerColor))
    (f (hex (s.rgbAt s.hexCharsPerColor) s.hexCharsPerColor))
    (f (hex (s.rgbAt (s.hexCharsPerColor * 2)) s.hexCharsPerColor))
  rw [hf, hf, hf, hred, hgreen, hblue] at hd
  exact ⟨d, hd⟩

theorem sendGroup_eq (hc : Configured inputBits h s) (hclock : s.clock = false) {g : List UInt8}
    (hlength : g.length = 3 * h) (hrgb : ∀ k < g.length, s.rgb k = g.getD k 0) : ∃ d,
    s.sendGroup = { s with
      data := d
      edges := s.edges ++ (groupBits inputBits h g).map .clock } := by
  have hbits := hc.bits
  unfold App.sendGroup
  dsimp only
  split_ifs with hpos
  · have hpos := Int8.lt_iff_toInt_lt.mp hpos
    rw [hc.shift] at hpos ⊢
    have hten : inputBits ≤ 10 := by
      change (0 : ℤ) < _ at hpos
      omega
    rw [show ((10 - inputBits : ℤ)).toNat = 10 - inputBits by omega]
    exact hc.sendRGB_group hclock hlength hrgb (tenBits_shiftLeft hten)
  · have hneg := fun h => hpos (Int8.lt_iff_toInt_lt.mpr h)
    rw [hc.shift] at hneg ⊢
    have hten : 10 ≤ inputBits := by
      change ¬ (0 : ℤ) < _ at hneg
      omega
    rw [show (-(10 - inputBits : ℤ)).toNat = inputBits - 10 by omega]
    exact hc.sendRGB_group hclock hlength hrgb (tenBits_shiftRight hten hbits.2)

end Configured

/-! ### Streams -/

theorem isLineEnd_iff (c : UInt8) : isLineEnd c = true ↔ c = 13 ∨ c = 10 := by
  rw [isLineEnd, Bool.or_eq_true, beq_iff_eq, beq_iff_eq]

/-- `rgb` has the incomplete group, and the edges are those of the items so far. -/
structure Tracks (inputBits h : ℕ) (s : App) (q : List UInt8 × List (Item UInt8)) : Prop where
  configured : Configured inputBits h s
  clock : s.clock = false
  latch : s.latch = false
  i : s.i.toNat = q.1.length
  short : q.1.length < 3 * h
  rgb : ∀ k < q.1.length, s.rgb k = q.1.getD k 0
  edges : s.edges = q.2.flatMap (itemEdges inputBits h)

theorem flatMap_snoc (f : Item UInt8 → List Edge) (out : List (Item UInt8)) (x : Item UInt8) :
    (out ++ [x]).flatMap f = out.flatMap f ++ f x := by
  rw [List.flatMap_append, List.flatMap_singleton]

namespace Tracks

variable {inputBits h : ℕ} {s : App} {q : List UInt8 × List (Item UInt8)}

theorem lineEnd (ht : Tracks inputBits h s q) :
    Tracks inputBits h { s with i := 0 }.toggleLatch ([], q.2 ++ [.delimiter]) := by
  rw [App.toggleLatch_eq (s := { s with i := 0 }) ht.latch]
  refine ⟨ht.configured.congr rfl rfl, ht.clock, ht.latch, rfl, ?_, nofun, ?_⟩
  · exact Nat.lt_of_le_of_lt (Nat.zero_le _) ht.short
  · rw [flatMap_snoc, ← ht.edges]
    rfl

/-- A character of a group, before the group is sent. -/
theorem store (ht : Tracks inputBits h s q) (c : UInt8) (k : ℕ) (hk : k < (q.1 ++ [c]).length) :
    Function.update s.rgb s.i.toNat c k = (q.1 ++ [c]).getD k 0 := by
  rw [List.length_append, List.length_singleton] at hk
  rw [ht.i]
  rcases Nat.lt_succ_iff_lt_or_eq.mp hk with hlt | rfl
  · rw [Function.update_of_ne (Nat.ne_of_lt hlt), List.getD_append _ _ _ _ hlt, ht.rgb k hlt]
  · rw [Function.update_self, List.getD_append_right _ _ _ _ (Nat.le_refl _), Nat.sub_self]
    rfl

theorem succ_i (ht : Tracks inputBits h s q) : (s.i + 1).toNat = q.1.length + 1 := by
  have hshort := ht.short
  have hdigits := ht.configured.digits_le
  rw [UInt8.toNat_add, ht.i, UInt8.toNat_one]
  omega

theorem full_iff (ht : Tracks inputBits h s q) :
    s.i + 1 = s.hexCharsPerColor * 3 ↔ q.1.length + 1 = 3 * h := by
  have hdigits := ht.configured.digits_le
  have hthree : (s.hexCharsPerColor * 3).toNat = 3 * h := by
    rw [UInt8.toNat_mul, ht.configured.hexCharsPerColor]
    change h * 3 % 2 ^ 8 = _
    omega
  rw [← UInt8.toNat_inj, ht.succ_i, hthree]

theorem step (ht : Tracks inputBits h s q) (c : UInt8) :
    Tracks inputBits h (s.shiftbriteProcessByte c) (feed isLineEnd (3 * h) q c) := by
  have hshort := ht.short
  have hlength : (q.1 ++ [c]).length = q.1.length + 1 := by
    rw [List.length_append, List.length_singleton]
  unfold App.shiftbriteProcessByte feed
  by_cases hend : c = 13 ∨ c = 10
  · rw [if_pos hend, if_pos ((isLineEnd_iff c).mpr hend)]
    exact ht.lineEnd
  rw [if_neg hend, if_neg fun h => hend ((isLineEnd_iff c).mp h)]
  dsimp only
  by_cases hfull : q.1.length + 1 = 3 * h
  · rw [if_pos (ht.full_iff.mpr hfull), if_pos hfull]
    have hconfigured : Configured inputBits h { s with
        rgb := Function.update s.rgb s.i.toNat c, i := 0 } := ht.configured.congr rfl rfl
    obtain ⟨d, hd⟩ := hconfigured.sendGroup_eq ht.clock (hlength.trans hfull) (ht.store c)
    rw [hd]
    refine ⟨hconfigured.congr rfl rfl, ht.clock, ht.latch, rfl, ?_, nofun, ?_⟩
    · change 0 < 3 * h
      omega
    rw [flatMap_snoc, ← ht.edges]
    rfl
  · rw [if_neg fun h => hfull (ht.full_iff.mp h), if_neg hfull]
    refine ⟨ht.configured.congr rfl rfl, ht.clock, ht.latch, ht.succ_i.trans hlength.symm, ?_,
      ht.store c, ht.edges⟩
    change (q.1 ++ [c]).length < 3 * h
    omega

theorem foldl (ht : Tracks inputBits h s q) (cs : List UInt8) :
    Tracks inputBits h (cs.foldl App.shiftbriteProcessByte s)
      (cs.foldl (feed isLineEnd (3 * h)) q) := by
  induction cs generalizing s q with
  | nil => exact ht
  | cons c cs ih => exact ih (ht.step c)

end Tracks

theorem restrictRange_toInt (v : Int32) :
    (restrictRange v 1 16).toInt = max 1 (min v.toInt 16) := by
  have hone : (1 : Int32).toInt = 1 := rfl
  have hsixteen : (16 : Int32).toInt = 16 := rfl
  unfold restrictRange
  split_ifs with hlow hhigh
  · rw [Int32.lt_iff_toInt_lt, hone] at hlow
    omega
  · rw [gt_iff_lt, Int32.lt_iff_toInt_lt, hsixteen] at hhigh
    omega
  · rw [Int32.lt_iff_toInt_lt, hone] at hlow
    rw [gt_iff_lt, Int32.lt_iff_toInt_lt, hsixteen] at hhigh
    omega

theorem configured_of_range {v : Int32} (h : 1 ≤ v.toInt) (h' : v.toInt ≤ 16) :
    (v.toUInt32.toUInt8.toNat : ℤ) = v.toInt ∧
      (((v.toUInt32.toUInt8 - 1) >>> 2) + 1).toNat = (v.toUInt32.toUInt8.toNat - 1) / 4 + 1 ∧
      (10 - v.toUInt32.toUInt8.toInt8).toInt = 10 - (v.toUInt32.toUInt8.toNat : ℤ) := by
  have hv : v = .ofInt v.toInt := (Int32.ofInt_toInt v).symm
  generalize v.toInt = n at hv h h' ⊢
  subst hv
  interval_cases n <;> decide

theorem inputBits_init (paramInputBits : Int32) :
    ((powerUp.shiftbriteInit paramInputBits).inputBits.toNat : ℤ) =
      max 1 (min paramInputBits.toInt 16) := by
  have hrange := restrictRange_toInt paramInputBits
  rw [← hrange]
  exact (configured_of_range (by omega) (by omega)).1

theorem tracks_init (paramInputBits : Int32) :
    Tracks (powerUp.shiftbriteInit paramInputBits).inputBits.toNat
      (powerUp.shiftbriteInit paramInputBits).hexCharsPerColor.toNat
      (powerUp.shiftbriteInit paramInputBits) ([], []) := by
  have hrange := restrictRange_toInt paramInputBits
  have hbits := inputBits_init paramInputBits
  obtain ⟨-, hhex, hshift⟩ := configured_of_range (v := restrictRange paramInputBits 1 16)
    (by omega) (by omega)
  have hconfigured : Configured (powerUp.shiftbriteInit paramInputBits).inputBits.toNat
      (powerUp.shiftbriteInit paramInputBits).hexCharsPerColor.toNat
      (powerUp.shiftbriteInit paramInputBits) := ⟨by omega, hhex, rfl, hshift⟩
  have hdigits := hconfigured.digits_le
  exact ⟨hconfigured, rfl, rfl, rfl, by change 0 < _; omega, nofun, rfl⟩

/-- For every parameter and every stream of characters, with `b` bits and `h` hex digits for a color:
the index stays within the group, and the rising edges are those of the groups and line ends of the
stream. -/
theorem processBytes_edges (paramInputBits : Int32) (cs : List UInt8) :
    let init := powerUp.shiftbriteInit paramInputBits
    let b := init.inputBits.toNat
    let h := init.hexCharsPerColor.toNat
    let s := cs.foldl App.shiftbriteProcessByte init
    (b : ℤ) = max 1 (min paramInputBits.toInt 16) ∧ h = (b - 1) / 4 + 1 ∧
      s.i.toNat < 3 * h ∧ 3 * h ≤ 12 ∧
      s.edges = (items isLineEnd (3 * h) cs).flatMap (itemEdges b h) ∧
      ∀ v : Fin (2 ^ b), scale b v < 2 ^ 10 := by
  intro init b h s
  have hstart : Tracks b h init ([], []) := tracks_init paramInputBits
  have hlast : Tracks b h s _ := hstart.foldl cs
  have hdigits := hstart.configured.digits_le
  have hbatch : (cs.foldl (feed isLineEnd (3 * h)) ([], [])).2 =
      [] ++ items isLineEnd (3 * h) ([] ++ cs) := foldl_feed nofun hstart.short
  refine ⟨inputBits_init paramInputBits, hstart.configured.digits, ?_, by omega, ?_, fun v =>
    scale_lt v.isLt⟩
  · rw [hlast.i]
    exact hlast.short
  · rw [hlast.edges, hbatch]
    rfl

end WixelSdk.Shiftbrite
