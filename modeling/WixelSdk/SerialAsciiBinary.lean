import Mathlib.Data.List.Basic
import Mathlib.Data.Nat.Notation

/-!
# The hex converter

`serial_ascii_binary.c`: `binaryToAsciiService` sends each byte that UART1 receives on UART0, as the
character H and two hex digits, and `asciiToBinaryService` sends the bytes for the hex digits that
UART0 receives on UART1. The encoder writes the digits above 9 in upper case, while the decoder
knows them in lower case only.
-/

namespace WixelSdk.SerialAsciiBinary

/-! ### Digits -/

/-- IS_HEX_DIGIT: `a` to `f` and `0` to `9` -/
def isHexDigit (byte : UInt8) : Bool := (byte ≥ 97 && byte ≤ 102) || (byte ≥ 48 && byte ≤ 57)

def hexDigitToNibble (digit : UInt8) : UInt8 :=
  let digit := digit ||| 0x20
  if digit ≥ 97 ∧ digit ≤ 102 then digit - 97 + 0x0A
  else if digit ≥ 48 ∧ digit ≤ 57 then digit - 48
  else 0xFF

def nibbleToHexDigit (nibble : UInt8) : UInt8 :=
  if nibble < 0x0A then nibble + 48 else nibble + 65 - 0x0A

def hexOf (byte : UInt8) : List UInt8 :=
  [72, nibbleToHexDigit (byte >>> 4), nibbleToHexDigit (byte &&& 0x0F)]

/-! ### The services -/

/-- The static variables of `asciiToBinaryService`, and what it has sent on UART1. -/
structure Decoder where
  count : UInt8
  firstHexDigit : UInt8
  uart1Tx : List UInt8
  deriving DecidableEq, Repr

def Decoder.takeChar (d : Decoder) (byte : UInt8) : Decoder :=
  if isHexDigit byte then
    if d.count = 0 then { d with firstHexDigit := byte, count := 1 }
    else
      { d with
        uart1Tx :=
          d.uart1Tx ++ [hexDigitToNibble d.firstHexDigit <<< 4 ||| hexDigitToNibble byte]
        count := 0 }
  else { d with count := 0 }

/-- `uart0Rx` and `uart1Rx` are the bytes that `uart0RxReceiveByte` and `uart1RxReceiveByte` are
going to return. -/
structure Converter where
  decoder : Decoder
  uart0Rx : List UInt8
  uart1Rx : List UInt8
  uart0Tx : List UInt8

namespace Converter

variable (s : Converter)

/-- The loop, given what `uart0RxAvailable` and `uart1TxAvailable` return each time. -/
def asciiToBinaryService : List (UInt8 × UInt8) → Converter → Converter
  | [], s => s
  | (rxAvailable, txAvailable) :: tests, s =>
    match s.uart0Rx with
    | [] => s
    | byte :: rest =>
      if rxAvailable ≠ 0 ∧ txAvailable ≠ 0 then
        asciiToBinaryService tests { s with uart0Rx := rest, decoder := s.decoder.takeChar byte }
      else s

/-- The loop, given what `uart1RxAvailable` and `uart0TxAvailable` return each time. -/
def binaryToAsciiService : List (UInt8 × UInt8) → Converter → Converter
  | [], s => s
  | (rxAvailable, txAvailable) :: tests, s =>
    match s.uart1Rx with
    | [] => s
    | byte :: rest =>
      if rxAvailable ≠ 0 ∧ txAvailable ≥ 3 then
        binaryToAsciiService tests { s with uart1Rx := rest, uart0Tx := s.uart0Tx ++ hexOf byte }
      else s

end Converter

inductive Call
  | asciiToBinaryService (tests : List (UInt8 × UInt8))
  | binaryToAsciiService (tests : List (UInt8 × UInt8))

namespace Converter

def call (s : Converter) : Call → Converter
  | .asciiToBinaryService tests => s.asciiToBinaryService tests
  | .binaryToAsciiService tests => s.binaryToAsciiService tests

def calls (s : Converter) (cs : List Call) : Converter := cs.foldl call s

def receive (uart0Rx uart1Rx : List UInt8) (firstHexDigit : UInt8) : Converter where
  decoder := ⟨0, firstHexDigit, []⟩
  uart0Rx := uart0Rx
  uart1Rx := uart1Rx
  uart0Tx := []

/-! ### What the services take -/

/-- `chars` and `bytes` have been taken from UART0 and UART1, and the services have done their work
on them. -/
structure Takes (s : Converter) (chars bytes : List UInt8) (t : Converter) : Prop where
  uart0Rx : s.uart0Rx = chars ++ t.uart0Rx
  decoder : t.decoder = chars.foldl Decoder.takeChar s.decoder
  uart1Rx : s.uart1Rx = bytes ++ t.uart1Rx
  uart0Tx : t.uart0Tx = s.uart0Tx ++ bytes.flatMap hexOf

variable {s t u : Converter} {chars chars' bytes bytes' : List UInt8}

theorem Takes.refl : Takes s [] [] s := ⟨rfl, rfl, rfl, (List.append_nil _).symm⟩

theorem Takes.trans (h : Takes s chars bytes t) (h' : Takes t chars' bytes' u) :
    Takes s (chars ++ chars') (bytes ++ bytes') u where
  uart0Rx := by rw [h.uart0Rx, h'.uart0Rx, List.append_assoc]
  decoder := by rw [h'.decoder, h.decoder, List.foldl_append]
  uart1Rx := by rw [h.uart1Rx, h'.uart1Rx, List.append_assoc]
  uart0Tx := by rw [h'.uart0Tx, h.uart0Tx, List.flatMap_append, List.append_assoc]

theorem takes_asciiToBinaryService (tests : List (UInt8 × UInt8)) (s : Converter) :
    ∃ chars, Takes s chars [] (s.asciiToBinaryService tests) := by
  induction tests generalizing s with
  | nil => exact ⟨[], .refl⟩
  | cons test tests ih =>
      rw [asciiToBinaryService]
      cases hrx : s.uart0Rx with
      | nil => exact ⟨[], .refl⟩
      | cons byte rest =>
          dsimp only
          split_ifs
          · obtain ⟨chars, hrest⟩ :=
              ih { s with uart0Rx := rest, decoder := s.decoder.takeChar byte }
            have hfirst : Takes s [byte] []
                { s with uart0Rx := rest, decoder := s.decoder.takeChar byte } :=
              ⟨hrx, rfl, rfl, (List.append_nil _).symm⟩
            exact ⟨[byte] ++ chars, hfirst.trans hrest⟩
          · exact ⟨[], .refl⟩

theorem takes_binaryToAsciiService (tests : List (UInt8 × UInt8)) (s : Converter) :
    ∃ bytes, Takes s [] bytes (s.binaryToAsciiService tests) := by
  induction tests generalizing s with
  | nil => exact ⟨[], .refl⟩
  | cons test tests ih =>
      rw [binaryToAsciiService]
      cases hrx : s.uart1Rx with
      | nil => exact ⟨[], .refl⟩
      | cons byte rest =>
          dsimp only
          split_ifs
          · obtain ⟨bytes, hrest⟩ :=
              ih { s with uart1Rx := rest, uart0Tx := s.uart0Tx ++ hexOf byte }
            have hfirst : Takes s [] [byte]
                { s with uart1Rx := rest, uart0Tx := s.uart0Tx ++ hexOf byte } :=
              ⟨rfl, rfl, hrx, by rw [List.flatMap_singleton]⟩
            exact ⟨[byte] ++ bytes, hfirst.trans hrest⟩
          · exact ⟨[], .refl⟩

theorem takes_calls (cs : List Call) (s : Converter) :
    ∃ chars bytes, Takes s chars bytes (s.calls cs) := by
  induction cs generalizing s with
  | nil => exact ⟨[], [], .refl⟩
  | cons c cs ih =>
      obtain ⟨chars, bytes, hfirst⟩ : ∃ chars bytes, Takes s chars bytes (s.call c) := by
        cases c with
        | asciiToBinaryService tests =>
            obtain ⟨chars, h⟩ := takes_asciiToBinaryService tests s
            exact ⟨chars, [], h⟩
        | binaryToAsciiService tests =>
            obtain ⟨bytes, h⟩ := takes_binaryToAsciiService tests s
            exact ⟨[], bytes, h⟩
      obtain ⟨chars', bytes', hrest⟩ := ih (s.call c)
      exact ⟨chars ++ chars', bytes ++ bytes', hfirst.trans hrest⟩

end Converter

/-! ### The round trip -/

def Decimal (byte : UInt8) : Prop := byte >>> 4 < 0x0A ∧ byte &&& 0x0F < 0x0A

instance (byte : UInt8) : Decidable (Decimal byte) := inferInstanceAs (Decidable (_ ∧ _))

/-- The digits of a byte are understood if they are decimal. -/
theorem hexOf_digits (byte : UInt8) :
    (isHexDigit (nibbleToHexDigit (byte >>> 4)) = decide (byte >>> 4 < 0x0A)) ∧
    (isHexDigit (nibbleToHexDigit (byte &&& 0x0F)) = decide (byte &&& 0x0F < 0x0A)) ∧
    (Decimal byte → hexDigitToNibble (nibbleToHexDigit (byte >>> 4)) <<< 4 |||
      hexDigitToNibble (nibbleToHexDigit (byte &&& 0x0F)) = byte) := by
  have hall : ∀ v : BitVec 8,
      (isHexDigit (nibbleToHexDigit (UInt8.ofBitVec v >>> 4)) =
        decide (UInt8.ofBitVec v >>> 4 < 0x0A)) ∧
      (isHexDigit (nibbleToHexDigit (UInt8.ofBitVec v &&& 0x0F)) =
        decide (UInt8.ofBitVec v &&& 0x0F < 0x0A)) ∧
      (Decimal (UInt8.ofBitVec v) →
        hexDigitToNibble (nibbleToHexDigit (UInt8.ofBitVec v >>> 4)) <<< 4 |||
          hexDigitToNibble (nibbleToHexDigit (UInt8.ofBitVec v &&& 0x0F)) = UInt8.ofBitVec v) := by
    decide +kernel
  exact hall byte.toBitVec

theorem foldl_takeChar_hexOf (d : Decoder) (byte : UInt8) :
    ((hexOf byte).foldl Decoder.takeChar d).uart1Tx =
      d.uart1Tx ++ if Decimal byte then [byte] else [] := by
  obtain ⟨hhigh, hlow, hbyte⟩ := hexOf_digits byte
  have hdelimiter : isHexDigit 72 = false := by decide
  simp only [hexOf, List.foldl_cons, List.foldl_nil, Decoder.takeChar, hdelimiter, hhigh, hlow,
    Decimal]
  by_cases hh : byte >>> 4 < 0x0A <;> by_cases hl : byte &&& 0x0F < 0x0A
  · simp [hh, hl, hbyte ⟨hh, hl⟩]
  · simp [hh, hl]
  · simp [hh, hl]
  · simp [hh, hl]

theorem foldl_takeChar_flatMap (d : Decoder) (bytes : List UInt8) :
    ((bytes.flatMap hexOf).foldl Decoder.takeChar d).uart1Tx =
      d.uart1Tx ++ bytes.filter fun byte => Decimal byte := by
  induction bytes generalizing d with
  | nil => exact (List.append_nil _).symm
  | cons byte bytes ih =>
      rw [List.flatMap_cons, List.foldl_append, ih, foldl_takeChar_hexOf, List.append_assoc,
        List.filter_cons]
      by_cases hdecimal : Decimal byte
      · rw [if_pos hdecimal, if_pos (decide_eq_true hdecimal)]
        rfl
      · rw [if_neg hdecimal, if_neg (by simpa using hdecimal)]
        rfl

namespace Converter

/-- The characters that one converter has made of some bytes, converted back by another: the bytes
come back if and only if all their digits are decimal. -/
theorem round_trip_iff (bytes : List UInt8) {binary ascii : List UInt8} {first first' : UInt8}
    {cs cs' : List Call} {s t : Converter}
    (hs : s = (receive ascii bytes first).calls cs) (hsent : s.uart1Rx = [])
    (ht : t = (receive s.uart0Tx binary first').calls cs') (hread : t.uart0Rx = []) :
    t.decoder.uart1Tx = bytes ↔ ∀ byte ∈ bytes, Decimal byte := by
  obtain ⟨_, taken, hencode⟩ := takes_calls cs (receive ascii bytes first)
  obtain ⟨chars, _, hdecode⟩ := takes_calls cs' (receive s.uart0Tx binary first')
  rw [← hs] at hencode
  rw [← ht] at hdecode
  have hbytes : bytes = taken := by
    have h := hencode.uart1Rx
    rwa [hsent, List.append_nil] at h
  have hchars : s.uart0Tx = chars := by
    have h := hdecode.uart0Rx
    rwa [hread, List.append_nil] at h
  have hemitted : s.uart0Tx = bytes.flatMap hexOf := by
    rw [hencode.uart0Tx, ← hbytes]
    rfl
  have hconverted : t.decoder.uart1Tx = bytes.filter fun byte => Decimal byte := by
    rw [hdecode.decoder, ← hchars, hemitted, foldl_takeChar_flatMap]
    rfl
  rw [hconverted, List.filter_eq_self]
  exact forall₂_congr fun _ _ => decide_eq_true_iff

/-- A call in which up to eight characters come, and there is room for them. -/
def eight : List (UInt8 × UInt8) := List.replicate 8 (1, 255)

theorem round_trip_of_decimal :
    ((receive ((receive [] [0x12, 0x35] 0).calls [.binaryToAsciiService eight]).uart0Tx [] 0).calls
      [.asciiToBinaryService (eight.take 2), .asciiToBinaryService eight]).decoder.uart1Tx =
      [0x12, 0x35] :=
  (round_trip_iff [0x12, 0x35] rfl (by decide +kernel) rfl (by decide +kernel)).mpr
    (by decide +kernel)

/-- The example of the documentation: 0xA2 is lost. -/
theorem byte_lost_in_round_trip :
    ((receive [] [0xA2, 0x35] 0).calls [.binaryToAsciiService eight]).uart0Tx =
      [72, 65, 50, 72, 51, 53] ∧
    ((receive [72, 65, 50, 72, 51, 53] [] 0).calls
      [.asciiToBinaryService eight]).decoder.uart1Tx = [0x35] := by
  decide +kernel

end Converter

end WixelSdk.SerialAsciiBinary
