import WixelSdk.Gpio
import WixelSdk.LastWrite
import WixelSdk.RadioQueue
import WixelSdk.Transition
import Mathlib.Data.List.Nodup

/-!
# The I/O repeater

Each of 15 pins has a link: a negative link makes it an input and a positive one an output. A packet has
a byte for each input, with the link in the lower 7 bits and the level in bit 7, and the receiver sets
the outputs with these links.
-/

namespace WixelSdk.IoRepeater
open Gpio LastWrite Transition

def pins : List UInt8 := [0, 1, 2, 3, 4, 5, 10, 11, 12, 13, 14, 15, 16, 17, 21]

structure Params where
  param_P0_0_link : Int32 := -1
  param_P0_1_link : Int32 := 0
  param_P0_2_link : Int32 := 0
  param_P0_3_link : Int32 := 0
  param_P0_4_link : Int32 := 0
  param_P0_5_link : Int32 := 0
  param_P1_0_link : Int32 := 0
  param_P1_1_link : Int32 := 0
  param_P1_2_link : Int32 := 0
  param_P1_3_link : Int32 := 0
  param_P1_4_link : Int32 := 0
  param_P1_5_link : Int32 := 0
  param_P1_6_link : Int32 := 0
  param_P1_7_link : Int32 := 0
  param_P2_1_link : Int32 := 1

namespace Params

variable (p : Params)

def param (pin : UInt8) : Int32 :=
  match pin with
  | 0 => p.param_P0_0_link
  | 1 => p.param_P0_1_link
  | 2 => p.param_P0_2_link
  | 3 => p.param_P0_3_link
  | 4 => p.param_P0_4_link
  | 5 => p.param_P0_5_link
  | 10 => p.param_P1_0_link
  | 11 => p.param_P1_1_link
  | 12 => p.param_P1_2_link
  | 13 => p.param_P1_3_link
  | 14 => p.param_P1_4_link
  | 15 => p.param_P1_5_link
  | 16 => p.param_P1_6_link
  | 17 => p.param_P1_7_link
  | 21 => p.param_P2_1_link
  | _ => 0

def pinLink (pin : UInt8) : Int8 := (p.param pin).toInt8

def isInput (pin : UInt8) : Bool := p.pinLink pin < 0

def isOutput (pin : UInt8) : Bool := p.pinLink pin > 0

/-- The links fit into 7 bits, without their signs. -/
def InRange : Prop := ∀ pin ∈ pins, -127 ≤ (p.param pin).toInt ∧ (p.param pin).toInt ≤ 127

/-- The last pin of the list with the link `-k`. -/
def lastInput (k : ℤ) : Option UInt8 := pins.findRev? fun pin => (p.param pin).toInt = -k

end Params

structure Wixel where
  gpio : Registers
  inPins : List UInt8 := []
  outPins : List UInt8 := []
  txEnabled : Bool := false
  rxEnabled : Bool := false

namespace Wixel

/-- After `systemInit` all pins are inputs, and port 2 is pulled low. -/
def powerUp (latch : Place → Bool) : Wixel where
  gpio := { latch := latch, dir := fun _ => false, pulledLow := fun port => port.val == 2 }

def inPinCount (s : Wixel) : UInt8 := .ofNat s.inPins.length

variable (p : Params)

def configurePin (s : Wixel) (tmp : UInt8) : Wixel :=
  if p.isOutput tmp then
    { s with
      gpio := s.gpio.setDigitalOutput tmp false
      outPins := s.outPins ++ [tmp]
      rxEnabled := true }
  else if p.isInput tmp then { s with inPins := s.inPins ++ [tmp], txEnabled := true }
  else s

def configurePins (s : Wixel) : Wixel :=
  pins.foldl (configurePin p)
    { s with gpio := (s.gpio.setPort0PullType true).setPort1PullType true }

/-- The byte of an input pin: bit 7 has the level, bits 6 to 0 have the link. -/
def pinByte (s : Wixel) (outside : Place → Bool) (pin : UInt8) : UInt8 :=
  (-p.pinLink pin).toUInt8 ||| (s.gpio.isPinHigh outside pin).toUInt8 <<< 7

def readPins (s : Wixel) (outside : Place → Bool) : List UInt8 :=
  s.inPins.map (s.pinByte p outside)

def setPin (byte : UInt8) (gpio : Registers) (pin : UInt8) : Registers :=
  if (p.pinLink pin).toUInt8 = byte &&& 0x7F then
    gpio.setDigitalOutput pin (byte >>> 7 &&& 1 = 1)
  else gpio

def setPins (s : Wixel) (buf : List UInt8) (byteCount : UInt8) : Wixel :=
  { s with
    gpio := (buf.take byteCount.toNat).foldl
      (fun gpio byte => s.outPins.foldl (setPin p byte) gpio) s.gpio }

def txPacket (s : Wixel) (outside : Place → Bool) : List UInt8 :=
  s.inPinCount :: s.readPins p outside

inductive Action
  | updateLeds (green yellow : Bool)
  | receive (rxBuf : List UInt8)

def step (s : Wixel) : Action → Option Wixel
  | .updateLeds green yellow => some { s with gpio := (s.gpio.ledGreen green).ledYellow yellow }
  | .receive rxBuf =>
    some (if s.rxEnabled then s.setPins p rxBuf.tail (rxBuf.headD 0) else s)

end Wixel

/-! ### The byte of a pin -/

section

variable {b : UInt8} {v : Bool}

theorem toNat_pack (hb : b.toNat < 128) (v : Bool) :
    (b ||| v.toUInt8 <<< 7).toNat = b.toNat + 128 * v.toNat := by
  cases v with
  | false => exact congrArg UInt8.toNat UInt8.or_zero
  | true =>
    rw [UInt8.toNat_or]
    exact Nat.or_two_pow_eq_add_of_lt (n := 7) hb

theorem pack_and (hb : b.toNat < 128) (v : Bool) : (b ||| v.toUInt8 <<< 7) &&& 0x7F = b := by
  refine UInt8.toNat_inj.mp ?_
  rw [UInt8.toNat_and, toNat_pack hb]
  change (b.toNat + 128 * v.toNat) &&& (2 ^ 7 - 1) = b.toNat
  rw [Nat.and_two_pow_sub_one_eq_mod]
  omega

theorem pack_shiftRight (hb : b.toNat < 128) (v : Bool) :
    ((b ||| v.toUInt8 <<< 7) >>> 7 &&& 1 = 1) ↔ v = true := by
  have hshift : ((b ||| v.toUInt8 <<< 7) >>> 7).toNat = v.toNat := by
    rw [UInt8.toNat_shiftRight, toNat_pack hb, Nat.shiftRight_eq_div_pow]
    change (b.toNat + 128 * v.toNat) / 2 ^ 7 = v.toNat
    omega
  cases v with
  | false =>
    rw [show (b ||| false.toUInt8 <<< 7) >>> 7 = 0 from UInt8.toNat_inj.mp hshift]
    decide
  | true =>
    rw [show (b ||| true.toUInt8 <<< 7) >>> 7 = 1 from UInt8.toNat_inj.mp hshift]
    decide

end

namespace Params

variable {p : Params} {pin : UInt8}

theorem inRange_of_all
    (h : (pins.all fun pin => -127 ≤ (p.param pin).toInt && (p.param pin).toInt ≤ 127) = true) :
    p.InRange := by
  intro pin hpin
  obtain ⟨hlow, hhigh⟩ := Bool.and_eq_true_iff.mp (List.all_eq_true.mp h pin hpin)
  exact ⟨of_decide_eq_true hlow, of_decide_eq_true hhigh⟩

theorem toInt_pinLink (hp : p.InRange) (hpin : pin ∈ pins) :
    (p.pinLink pin).toInt = (p.param pin).toInt := by
  obtain ⟨hlow, hhigh⟩ := hp pin hpin
  rw [pinLink, Int32.toInt_toInt8]
  exact Int.bmod_eq_of_le (by omega) (by omega)

theorem isOutput_iff (hp : p.InRange) (hpin : pin ∈ pins) :
    p.isOutput pin = true ↔ 0 < (p.param pin).toInt := by
  rw [isOutput, decide_eq_true_eq, gt_iff_lt, Int8.lt_iff_toInt_lt, toInt_pinLink hp hpin]
  rfl

theorem isInput_iff (hp : p.InRange) (hpin : pin ∈ pins) :
    p.isInput pin = true ↔ (p.param pin).toInt < 0 := by
  rw [isInput, decide_eq_true_eq, Int8.lt_iff_toInt_lt, toInt_pinLink hp hpin]
  rfl

theorem toInt_neg_pinLink (hp : p.InRange) (hpin : pin ∈ pins) :
    (-p.pinLink pin).toInt = -(p.param pin).toInt := by
  obtain ⟨hlow, hhigh⟩ := hp pin hpin
  rw [Int8.toInt_neg, toInt_pinLink hp hpin]
  exact Int.bmod_eq_of_le (by omega) (by omega)

theorem toNat_neg_pinLink (hp : p.InRange) (hpin : pin ∈ pins) (hin : p.isInput pin = true) :
    (-p.pinLink pin).toUInt8.toNat < 128 := by
  obtain ⟨hlow, hhigh⟩ := hp pin hpin
  have hneg := (isInput_iff hp hpin).mp hin
  have hle : 0 ≤ -p.pinLink pin := by
    rw [Int8.le_iff_toInt_le, toInt_neg_pinLink hp hpin]
    change 0 ≤ -(p.param pin).toInt
    omega
  rw [Int8.toNat_toUInt8_of_le hle]
  change (-p.pinLink pin).toInt.toNat < 128
  rw [toInt_neg_pinLink hp hpin]
  omega

end Params

/-! ### The lists of the pins -/

namespace Wixel

variable {p : Params} {s t : Wixel}

theorem foldl_configurePin_outPins (l : List UInt8) (s : Wixel) :
    (l.foldl (configurePin p) s).outPins = s.outPins ++ l.filter p.isOutput := by
  induction l generalizing s with
  | nil => exact (List.append_nil _).symm
  | cons pin l ih =>
    rw [List.foldl_cons, ih, List.filter_cons]
    unfold configurePin
    split_ifs <;> simp

theorem isOutput_eq_false {pin : UInt8} (h : p.isInput pin = true) : p.isOutput pin = false := by
  have hlt : p.pinLink pin < 0 := of_decide_eq_true h
  exact decide_eq_false (Int8.lt_asymm hlt)

theorem foldl_configurePin_inPins (l : List UInt8) (s : Wixel) :
    (l.foldl (configurePin p) s).inPins = s.inPins ++ l.filter p.isInput := by
  induction l generalizing s with
  | nil => exact (List.append_nil _).symm
  | cons pin l ih =>
    rw [List.foldl_cons, ih, List.filter_cons]
    unfold configurePin
    split_ifs with hout hin
    · rw [isOutput_eq_false hin] at hout
      exact absurd hout Bool.false_ne_true
    · rfl
    · rw [List.append_assoc]
      rfl
    · rfl

theorem foldl_configurePin_rxEnabled (l : List UInt8) (s : Wixel) :
    (l.foldl (configurePin p) s).rxEnabled = (s.rxEnabled || l.any p.isOutput) := by
  induction l generalizing s with
  | nil => exact (Bool.or_false _).symm
  | cons pin l ih =>
    rw [List.foldl_cons, ih, List.any_cons]
    unfold configurePin
    split_ifs <;> simp [*]

theorem foldl_configurePin_txEnabled (l : List UInt8) (s : Wixel) :
    (l.foldl (configurePin p) s).txEnabled = (s.txEnabled || l.any p.isInput) := by
  induction l generalizing s with
  | nil => exact (Bool.or_false _).symm
  | cons pin l ih =>
    rw [List.foldl_cons, ih, List.any_cons]
    unfold configurePin
    split_ifs with hout hin
    · have hin : p.isInput pin = false := by
        by_contra hin
        rw [isOutput_eq_false (Bool.eq_true_of_not_eq_false hin)] at hout
        exact Bool.false_ne_true hout
      rw [hin, Bool.false_or]
    · rw [hin, Bool.true_or, Bool.or_true]
    · rw [Bool.eq_false_of_not_eq_true hin, Bool.false_or]

theorem writes_configurePin (q : Place) :
    Writes (configurePin p) (fun s => s.gpio.dir q)
      (fun pin => p.isOutput pin && pinSwitch pin == some q) fun _ => true := by
  constructor
  · intro s pin h
    obtain ⟨hout, hplace⟩ := Bool.and_eq_true_iff.mp h
    rw [configurePin, if_pos hout]
    exact (Registers.setDigitalOutput_dir _ _ _ _).trans (if_pos (beq_iff_eq.mp hplace))
  · intro s pin h
    unfold configurePin
    split_ifs with hout
    · rw [hout, Bool.true_and] at h
      exact (Registers.setDigitalOutput_dir _ _ _ _).trans (if_neg (beq_eq_false_iff_ne.mp h))
    · rfl
    · rfl

structure Configured (p : Params) (s : Wixel) : Prop where
  inPins : s.inPins = pins.filter p.isInput
  outPins : s.outPins = pins.filter p.isOutput
  txEnabled : s.txEnabled = pins.any p.isInput
  rxEnabled : s.rxEnabled = pins.any p.isOutput
  input : ∀ pin ∈ s.inPins, ∀ q, pinSwitch pin = some q → s.gpio.dir q = false

theorem exists_place {pin : UInt8} (h : pin ∈ pins) : ∃ q, pinSwitch pin = some q := by
  have hall : (pins.all fun pin => (pinSwitch pin).isSome) = true := by decide
  exact Option.isSome_iff_exists.mp (List.all_eq_true.mp hall pin h)

theorem place_inj {pin pin' : UInt8} {q : Place} (h : pin ∈ pins) (h' : pin' ∈ pins)
    (hq : pinSwitch pin = some q) (hq' : pinSwitch pin' = some q) : pin = pin' := by
  have hnodup : (pins.map pinSwitch).Nodup := by decide
  exact List.inj_on_of_nodup_map hnodup h h' (hq.trans hq'.symm)

theorem configured_configurePins (p : Params) (latch : Place → Bool) :
    Configured p ((powerUp latch).configurePins p) := by
  have hin : ((powerUp latch).configurePins p).inPins = pins.filter p.isInput :=
    foldl_configurePin_inPins pins _
  refine ⟨hin, foldl_configurePin_outPins pins _, ?_, ?_, ?_⟩
  · exact (foldl_configurePin_txEnabled pins _).trans (Bool.false_or _)
  · exact (foldl_configurePin_rxEnabled pins _).trans (Bool.false_or _)
  · intro pin hpin q hq
    rw [hin, List.mem_filter] at hpin
    refine (writes_configurePin q).foldl_of_none (fun pin' hpin' => ?_) _
    cases hplace : pinSwitch pin' == some q with
    | false => exact Bool.and_false _
    | true =>
      rw [← place_inj hpin.1 hpin' hq (beq_iff_eq.mp hplace), isOutput_eq_false hpin.2]
      rfl

/-! ### The bytes of a packet -/

/-- The byte sets the output `pin` at `q`. -/
def hits (p : Params) (q : Place) (byte pin : UInt8) : Bool :=
  (p.pinLink pin).toUInt8 == byte &&& 0x7F && pinSwitch pin == some q

def bit (byte : UInt8) : Bool := byte >>> 7 &&& 1 = 1

theorem setPin_of_hits {q : Place} {byte pin : UInt8} (h : hits p q byte pin = true)
    (gpio : Registers) : setPin p byte gpio pin = gpio.setDigitalOutput pin (bit byte) ∧
      pinSwitch pin = some q := by
  obtain ⟨hlink, hplace⟩ := Bool.and_eq_true_iff.mp h
  exact ⟨if_pos (beq_iff_eq.mp hlink), beq_iff_eq.mp hplace⟩

theorem setPin_of_not_hits {q : Place} {byte pin : UInt8} (h : hits p q byte pin = false)
    (gpio : Registers) : setPin p byte gpio pin = gpio ∨
      setPin p byte gpio pin = gpio.setDigitalOutput pin (bit byte) ∧ pinSwitch pin ≠ some q := by
  by_cases hlink : (p.pinLink pin).toUInt8 = byte &&& 0x7F
  · rw [hits, beq_iff_eq.mpr hlink, Bool.true_and] at h
    exact .inr ⟨if_pos hlink, beq_eq_false_iff_ne.mp h⟩
  · exact .inl (if_neg hlink)

theorem writes_latch (p : Params) (q : Place) (byte : UInt8) :
    Writes (setPin p byte) (fun gpio => gpio.latch q) (hits p q byte) fun _ => bit byte := by
  constructor
  · intro gpio pin h
    obtain ⟨hset, hplace⟩ := setPin_of_hits h gpio
    rw [hset, Registers.setDigitalOutput_latch, if_pos hplace]
  · intro gpio pin h
    rcases setPin_of_not_hits h gpio with hset | ⟨hset, hplace⟩
    · rw [hset]
    · rw [hset, Registers.setDigitalOutput_latch, if_neg hplace]

theorem writes_dir (p : Params) (q : Place) (byte : UInt8) :
    Writes (setPin p byte) (fun gpio => gpio.dir q) (hits p q byte) fun _ => true := by
  constructor
  · intro gpio pin h
    obtain ⟨hset, hplace⟩ := setPin_of_hits h gpio
    rw [hset, Registers.setDigitalOutput_dir, if_pos hplace]
  · intro gpio pin h
    rcases setPin_of_not_hits h gpio with hset | ⟨hset, hplace⟩
    · rw [hset]
    · rw [hset, Registers.setDigitalOutput_dir, if_neg hplace]

/-- The last byte of a packet that sets an output at `q`. -/
def lastHit (p : Params) (s : Wixel) (q : Place) (bytes : List UInt8) : Option UInt8 :=
  bytes.findRev? fun byte => s.outPins.any (hits p q byte)

theorem setPins_latch (p : Params) (s : Wixel) (buf : List UInt8) (byteCount : UInt8) (q : Place) :
    (s.setPins p buf byteCount).gpio.latch q =
      ((lastHit p s q (buf.take byteCount.toNat)).map bit).getD (s.gpio.latch q) :=
  (Writes.nested (writes_latch p q) s.outPins).foldl _ s.gpio

theorem setPins_dir (p : Params) (s : Wixel) (buf : List UInt8) (byteCount : UInt8) (q : Place) :
    (s.setPins p buf byteCount).gpio.dir q =
      ((lastHit p s q (buf.take byteCount.toNat)).map fun _ => true).getD (s.gpio.dir q) :=
  (Writes.nested (writes_dir p q) s.outPins).foldl _ s.gpio

theorem setPins_pulledLow (p : Params) (s : Wixel) (buf : List UInt8) (byteCount : UInt8) :
    (s.setPins p buf byteCount).gpio.pulledLow = s.gpio.pulledLow := by
  refine foldl_keeps Registers.pulledLow (fun gpio byte => ?_) _ s.gpio
  refine foldl_keeps Registers.pulledLow (fun gpio pin => ?_) s.outPins gpio
  unfold setPin
  split_ifs
  · exact Registers.setDigitalOutput_pulledLow _ _ _
  · rfl

theorem lastHit_eq_none {q : Place} (h : ∀ pin ∈ s.outPins, pinSwitch pin ≠ some q)
    (bytes : List UInt8) : lastHit p s q bytes = none := by
  refine findRev?_eq_none.mpr fun byte _ => List.any_eq_false.mpr fun pin hpin => ?_
  rw [hits, beq_eq_false_iff_ne.mpr (h pin hpin), Bool.and_false]
  exact Bool.false_ne_true

/-! ### Runs -/

theorem Configured.place_ne (h : Configured p s) {pin pin' : UInt8} {q : Place}
    (hpin : pin ∈ s.inPins) (hpin' : pin' ∈ s.outPins) (hq : pinSwitch pin = some q) :
    pinSwitch pin' ≠ some q := by
  intro hq'
  rw [h.inPins, List.mem_filter] at hpin
  rw [h.outPins, List.mem_filter] at hpin'
  obtain rfl := place_inj hpin.1 hpin'.1 hq hq'
  rw [isOutput_eq_false hpin.2] at hpin'
  exact Bool.false_ne_true hpin'.2

theorem Configured.setPins (h : Configured p s) (buf : List UInt8) (byteCount : UInt8) :
    Configured p (s.setPins p buf byteCount) := by
  refine ⟨h.inPins, h.outPins, h.txEnabled, h.rxEnabled, fun pin hpin q hq => ?_⟩
  rw [setPins_dir, lastHit_eq_none fun pin' hpin' => h.place_ne hpin hpin' hq]
  exact h.input pin hpin q hq

/-- The LEDs are on pins of their own. -/
theorem Configured.leds (h : Configured p s) (green yellow : Bool) :
    Configured p { s with gpio := (s.gpio.ledGreen green).ledYellow yellow } := by
  have hyellow : some (2, 2) ∉ pins.map pinSwitch := by decide
  have hgreen : some (2, 4) ∉ pins.map pinSwitch := by decide
  refine ⟨h.inPins, h.outPins, h.txEnabled, h.rxEnabled, fun pin hpin q hq => ?_⟩
  have hdir := h.input pin hpin q hq
  have hmem : some q ∈ pins.map pinSwitch :=
    hq ▸ List.mem_map_of_mem (List.mem_filter.mp (h.inPins ▸ hpin)).1
  have hneYellow : q ≠ (2, 2) := fun h => hyellow (h ▸ hmem)
  have hneGreen : q ≠ (2, 4) := fun h => hgreen (h ▸ hmem)
  calc Function.update (Function.update s.gpio.dir (2, 4) green) (2, 2) yellow q
      = Function.update s.gpio.dir (2, 4) green q := Function.update_of_ne hneYellow _ _
    _ = s.gpio.dir q := Function.update_of_ne hneGreen _ _
    _ = false := hdir

theorem Configured.step (h : Configured p s) {a : Action} (ha : step p s a = some t) :
    Configured p t := by
  cases a with
  | updateLeds green yellow =>
    obtain rfl := Option.some.inj ha
    exact h.leds green yellow
  | receive rxBuf =>
    obtain rfl := Option.some.inj ha
    split_ifs
    · exact h.setPins _ _
    · exact h

theorem configured_of_run {latch : Place → Bool}
    (hr : Run (Wixel.step p) (fun _ _ => True) ((powerUp latch).configurePins p) s) :
    Configured p s :=
  Run.invariant hr (configured_configurePins p latch) fun _ _ _ h _ ha => h.step ha

theorem setPins_of_nil (h : s.outPins = []) (buf : List UInt8) (byteCount : UInt8) :
    s.setPins p buf byteCount = s := by
  have hgpio : (s.setPins p buf byteCount).gpio = s.gpio := by
    refine foldl_keeps id (fun gpio byte => ?_) _ s.gpio
    rw [h]
    rfl
  cases s
  exact congrArg (Wixel.mk · _ _ _ _) hgpio

/-- The main loop of the receiver does with a packet what `setPins` does with its bytes. -/
theorem receive_txPacket {rx : Params} {r : Wixel} (hr : Configured rx r) (tx : Params) (t : Wixel)
    (outside : Place → Bool) : Wixel.step rx r (.receive (t.txPacket tx outside)) =
      some (r.setPins rx (t.readPins tx outside) t.inPinCount) := by
  refine congrArg some ?_
  split_ifs with h
  · rfl
  · have hout : r.outPins = [] := by
      rw [hr.rxEnabled, List.any_eq_true] at h
      rw [hr.outPins, List.filter_eq_nil_iff]
      exact fun pin hpin hout => h ⟨pin, hpin, hout⟩
    exact (setPins_of_nil hout _ _).symm

/-! ### A packet -/

variable {tx rx : Params} {r : Wixel} {outside : Place → Bool}

theorem length_readPins (ht : Configured tx t) (outside : Place → Bool) :
    (t.readPins tx outside).length ≤ 15 := by
  rw [readPins, List.length_map, ht.inPins]
  exact List.length_filter_le _ _

theorem take_readPins (ht : Configured tx t) (outside : Place → Bool) :
    (t.readPins tx outside).take t.inPinCount.toNat = t.readPins tx outside := by
  have hle := length_readPins ht outside
  refine List.take_of_length_le ?_
  rw [readPins, List.length_map] at hle ⊢
  rw [inPinCount, UInt8.toNat_ofNat', Nat.mod_eq_of_lt (by omega)]

theorem any_hits (hr : Configured rx r) {pin : UInt8} {q : Place} (hpin : pin ∈ r.outPins)
    (hq : pinSwitch pin = some q) (byte : UInt8) :
    r.outPins.any (hits rx q byte) = true ↔ (rx.pinLink pin).toUInt8 = byte &&& 0x7F := by
  rw [List.any_eq_true]
  constructor
  · rintro ⟨pin', hpin', hhit⟩
    obtain ⟨hlink, hplace⟩ := Bool.and_eq_true_iff.mp hhit
    rw [hr.outPins, List.mem_filter] at hpin hpin'
    obtain rfl := place_inj hpin.1 hpin'.1 hq (beq_iff_eq.mp hplace)
    exact beq_iff_eq.mp hlink
  · intro hlink
    exact ⟨pin, hpin, Bool.and_eq_true_iff.mpr ⟨beq_iff_eq.mpr hlink, beq_iff_eq.mpr hq⟩⟩

/-- The byte of an input has the link of an output just where the links are opposite. -/
theorem toUInt8_pinLink_eq_iff (htx : tx.InRange) (hrx : rx.InRange) {i pin : UInt8} (hi : i ∈ pins)
    (hpin : pin ∈ pins) (hin : tx.isInput i = true) :
    (rx.pinLink pin).toUInt8 = t.pinByte tx outside i &&& 0x7F ↔
      (tx.param i).toInt = -(rx.param pin).toInt := by
  rw [pinByte, pack_and (Params.toNat_neg_pinLink htx hi hin)]
  have hinj : (rx.pinLink pin).toUInt8 = (-tx.pinLink i).toUInt8 ↔
      (rx.pinLink pin).toInt = (-tx.pinLink i).toInt := by
    rw [Int8.toInt_inj]
    exact ⟨fun h => by simpa using congrArg UInt8.toInt8 h, congrArg Int8.toUInt8⟩
  rw [hinj, Params.toInt_pinLink hrx hpin, Params.toInt_neg_pinLink htx hi]
  constructor <;> intro h <;> omega

theorem lastHit_readPins (htx : tx.InRange) (hrx : rx.InRange) (ht : Configured tx t)
    (hr : Configured rx r) {pin : UInt8} {q : Place} (hpin : pin ∈ r.outPins)
    (hq : pinSwitch pin = some q) (outside : Place → Bool) :
    lastHit rx r q (t.readPins tx outside) =
      (tx.lastInput (rx.param pin).toInt).map (t.pinByte tx outside) := by
  have hmem := List.mem_filter.mp (hr.outPins ▸ hpin)
  have hpos := (Params.isOutput_iff hrx hmem.1).mp hmem.2
  rw [lastHit, readPins, ht.inPins]
  refine findRev?_map_filter fun i hi => Bool.eq_iff_iff.mpr ?_
  rw [Bool.and_eq_true_iff, decide_eq_true_eq]
  constructor
  · rintro ⟨hin, hany⟩
    exact (toUInt8_pinLink_eq_iff htx hrx hi hmem.1 hin).mp ((any_hits hr hpin hq _).mp hany)
  · intro hlink
    have hin : tx.isInput i = true := (Params.isInput_iff htx hi).mpr (by omega)
    exact ⟨hin, (any_hits hr hpin hq _).mpr ((toUInt8_pinLink_eq_iff htx hrx hi hmem.1 hin).mpr hlink)⟩

theorem bit_pinByte (htx : tx.InRange) (ht : Configured tx t) {i : UInt8} {q : Place}
    (hi : i ∈ t.inPins) (hq : pinSwitch i = some q) :
    bit (t.pinByte tx outside i) = outside q := by
  have hmem := List.mem_filter.mp (ht.inPins ▸ hi)
  have hlevel : t.gpio.isPinHigh outside i = outside q :=
    Registers.isPinHigh_of_input hq (ht.input i hi q hq)
  rw [bit, pinByte, hlevel, Bool.eq_iff_iff, decide_eq_true_eq]
  exact pack_shiftRight (Params.toNat_neg_pinLink htx hmem.1 hmem.2) (outside q)

theorem mem_inPins (htx : tx.InRange) (ht : Configured tx t) {k : ℤ} (hk : 0 < k) {i : UInt8}
    (hi : tx.lastInput k = some i) : i ∈ t.inPins := by
  obtain ⟨hmem, hlink⟩ := findRev?_eq_some hi
  have hlink := of_decide_eq_true hlink
  rw [ht.inPins]
  exact List.mem_filter.mpr ⟨hmem, (Params.isInput_iff htx hmem).mpr (by omega)⟩

/-- From `r` to `r'` the outputs take the levels of the inputs with their links, of the last one if
there are several, and nothing else changes. -/
structure Copies (tx rx : Params) (outside : Place → Bool) (r r' : Wixel) : Prop where
  copied : ∀ pin ∈ pins, 0 < (rx.param pin).toInt →
    ∀ i, tx.lastInput (rx.param pin).toInt = some i →
      ∃ q, pinSwitch i = some q ∧ r'.gpio.Outputs pin (outside q)
  kept : ∀ q, (∀ pin ∈ pins, pinSwitch pin = some q → 0 < (rx.param pin).toInt →
      tx.lastInput (rx.param pin).toInt = none) →
    r'.gpio.latch q = r.gpio.latch q ∧ r'.gpio.dir q = r.gpio.dir q
  pulledLow : r'.gpio.pulledLow = r.gpio.pulledLow

theorem copies_setPins (htx : tx.InRange) (hrx : rx.InRange) (ht : Configured tx t)
    (hr : Configured rx r) :
    Copies tx rx outside r (r.setPins rx (t.readPins tx outside) t.inPinCount) := by
  have hmem : ∀ pin ∈ pins, 0 < (rx.param pin).toInt → pin ∈ r.outPins := by
    intro pin hpin hpos
    rw [hr.outPins]
    exact List.mem_filter.mpr ⟨hpin, (Params.isOutput_iff hrx hpin).mpr hpos⟩
  refine ⟨fun pin hpin hpos i hi => ?_, fun q hnone => ?_, setPins_pulledLow _ _ _ _⟩
  · obtain ⟨q, hq⟩ := exists_place hpin
    have hin := mem_inPins htx ht hpos hi
    obtain ⟨q', hq'⟩ := exists_place (findRev?_eq_some hi).1
    have hhit := lastHit_readPins htx hrx ht hr (hmem pin hpin hpos) hq outside
    rw [hi, ← take_readPins ht outside] at hhit
    refine ⟨q', hq', q, hq, ?_, ?_⟩
    · rw [setPins_dir, hhit]
      rfl
    · rw [setPins_latch, hhit]
      exact bit_pinByte htx ht hin hq'
  · have hhit : lastHit rx r q (t.readPins tx outside) = none := by
      by_cases hplace : ∃ pin ∈ r.outPins, pinSwitch pin = some q
      · obtain ⟨pin, hpin, hq⟩ := hplace
        have hfilter := List.mem_filter.mp (hr.outPins ▸ hpin)
        have hpos := (Params.isOutput_iff hrx hfilter.1).mp hfilter.2
        rw [lastHit_readPins htx hrx ht hr hpin hq, hnone pin hfilter.1 hq hpos]
        rfl
      · exact lastHit_eq_none (fun pin hpin hq => hplace ⟨pin, hpin, hq⟩) _
    rw [← take_readPins ht outside] at hhit
    rw [setPins_latch, setPins_dir, hhit]
    exact ⟨rfl, rfl⟩

/-- At any time after `configurePins` on both sides the bytes of `readPins` make `setPins` copy the
linked pins and no other. Their number is the length byte of a packet that fits, and the main loop of the
receiver does the same with that packet. -/
theorem setPins_readPins (htx : tx.InRange) (hrx : rx.InRange) {latch latch' : Place → Bool}
    (ht : Run (Wixel.step tx) (fun _ _ => True) ((powerUp latch).configurePins tx) t)
    (hr : Run (Wixel.step rx) (fun _ _ => True) ((powerUp latch').configurePins rx) r) :
    Copies tx rx outside r (r.setPins rx (t.readPins tx outside) t.inPinCount) ∧
      Wixel.step rx r (.receive (t.txPacket tx outside)) =
        some (r.setPins rx (t.readPins tx outside) t.inPinCount) ∧
      t.inPinCount.toNat = (t.readPins tx outside).length ∧
      (t.readPins tx outside).length ≤ RadioQueue.maxPacketSize := by
  have ht := configured_of_run ht
  have hr := configured_of_run hr
  have hle := length_readPins ht outside
  refine ⟨copies_setPins htx hrx ht hr, receive_txPacket hr tx t outside, ?_,
    hle.trans (by decide)⟩
  rw [readPins, List.length_map] at hle ⊢
  rw [inPinCount, UInt8.toNat_ofNat', Nat.mod_eq_of_lt (by omega)]

/-- P0_0 and P0_1 have the link -5, and the receiver has an output with the link 5. -/
def twoInputs : Params := { param_P0_0_link := -5, param_P0_1_link := -5, param_P2_1_link := 0 }

def oneOutput : Params := { param_P0_0_link := 0, param_P1_0_link := 5, param_P2_1_link := 0 }

/-- P0_0 is low and P0_1 is high. -/
theorem setPins_readPins_twoInputs :
    let outside : Place → Bool := fun q => q == (0, 1)
    let t := (powerUp fun _ => true).configurePins twoInputs
    let r := (powerUp fun _ => true).configurePins oneOutput
    Copies twoInputs oneOutput outside r
        (r.setPins oneOutput (t.readPins twoInputs outside) t.inPinCount) ∧
      Wixel.step oneOutput r (.receive (t.txPacket twoInputs outside)) =
        some (r.setPins oneOutput (t.readPins twoInputs outside) t.inPinCount) ∧
      t.inPinCount.toNat = (t.readPins twoInputs outside).length ∧
      (t.readPins twoInputs outside).length ≤ RadioQueue.maxPacketSize :=
  setPins_readPins (Params.inRange_of_all (by decide)) (Params.inRange_of_all (by decide))
    .refl .refl

end Wixel

end WixelSdk.IoRepeater
