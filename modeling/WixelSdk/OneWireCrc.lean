import Mathlib.Logic.Function.Iterate
import WixelSdk.OneWire
import WixelSdk.ShiftRegister

/-!
# The CRC of the 1-Wire bus

Both versions of `onewire_crc8`: the one that goes through the bits of each byte, and the one that
looks up a table, which is chosen by `ONEWIRE_CRC8_TABLE`.
-/

namespace WixelSdk.OneWire

open OneWireBus ShiftRegister

def crcTurn (p : UInt8 × UInt8) : UInt8 × UInt8 :=
  let mix := (p.1 ^^^ p.2) &&& 0x01
  let crc := p.1 >>> 1
  (if mix ≠ 0 then crc ^^^ 0x8C else crc, p.2 >>> 1)

/-- The version without a table. -/
def onewireCrc8 (addr : List UInt8) : UInt8 :=
  addr.foldl (fun crc inbyte => (crcTurn^[8] (crc, inbyte)).1) 0

def dscrcTable : List UInt8 :=
  [0, 94, 188, 226, 97, 63, 221, 131, 194, 156, 126, 32, 163, 253, 31, 65,
   157, 195, 33, 127, 252, 162, 64, 30, 95, 1, 227, 189, 62, 96, 130, 220,
   35, 125, 159, 193, 66, 28, 254, 160, 225, 191, 93, 3, 128, 222, 60, 98,
   190, 224, 2, 92, 223, 129, 99, 61, 124, 34, 192, 158, 29, 67, 161, 255,
   70, 24, 250, 164, 39, 121, 155, 197, 132, 218, 56, 102, 229, 187, 89, 7,
   219, 133, 103, 57, 186, 228, 6, 88, 25, 71, 165, 251, 120, 38, 196, 154,
   101, 59, 217, 135, 4, 90, 184, 230, 167, 249, 27, 69, 198, 152, 122, 36,
   248, 166, 68, 26, 153, 199, 37, 123, 58, 100, 134, 216, 91, 5, 231, 185,
   140, 210, 48, 110, 237, 179, 81, 15, 78, 16, 242, 172, 47, 113, 147, 205,
   17, 79, 173, 243, 112, 46, 204, 146, 211, 141, 111, 49, 178, 236, 14, 80,
   175, 241, 19, 77, 206, 144, 114, 44, 109, 51, 209, 143, 12, 82, 176, 238,
   50, 108, 142, 208, 83, 13, 239, 177, 240, 174, 76, 18, 145, 207, 45, 115,
   202, 148, 118, 40, 171, 245, 23, 73, 8, 86, 180, 234, 105, 55, 213, 139,
   87, 9, 235, 181, 54, 104, 138, 212, 149, 203, 41, 119, 244, 170, 72, 22,
   233, 183, 85, 11, 136, 214, 52, 106, 43, 117, 151, 201, 74, 20, 246, 168,
   116, 42, 200, 150, 21, 75, 169, 247, 182, 232, 10, 84, 215, 137, 107, 53]

/-- The version with a table. -/
def onewireCrc8Table (addr : List UInt8) : UInt8 :=
  addr.foldl (fun crc byte => dscrcTable.getD (crc ^^^ byte).toNat 0) 0

/-! ### The remainder of the bits -/

def poly : BitVec 8 := 0x8C#8

theorem crcTurn_fst (p : UInt8 × UInt8) :
    (crcTurn p).1.toBitVec = shift poly p.1.toBitVec (p.2.toBitVec.getLsbD 0) := by
  have hmix : (p.1 ^^^ p.2) &&& 0x01 ≠ 0 ↔
      (p.1.toBitVec.getLsbD 0 ^^ p.2.toBitVec.getLsbD 0) = true := by
    have hlow : ∀ v : BitVec 8, (⟨v⟩ : UInt8) &&& 0x01 ≠ 0 ↔ v.getLsbD 0 = true := by
      decide +kernel
    rw [← BitVec.getLsbD_xor, ← UInt8.toBitVec_xor]
    exact hlow (p.1 ^^^ p.2).toBitVec
  rw [crcTurn, shift]
  simp only [hmix]
  split_ifs <;> simp [poly]

theorem crcTurn_snd (p : UInt8 × UInt8) : (crcTurn p).2.toBitVec = p.2.toBitVec >>> 1 := by
  simp [crcTurn]

theorem crcTurn_iterate (n : ℕ) (crc inbyte : UInt8) :
    (crcTurn^[n] (crc, inbyte)).1.toBitVec =
        run poly crc.toBitVec ((List.range n).map inbyte.toBitVec.getLsbD) ∧
      (crcTurn^[n] (crc, inbyte)).2.toBitVec = inbyte.toBitVec >>> n := by
  induction n with
  | zero => exact ⟨rfl, (BitVec.ushiftRight_zero _).symm⟩
  | succ n ih =>
      rw [Function.iterate_succ_apply', crcTurn_fst, crcTurn_snd, ih.1, ih.2]
      refine ⟨?_, (BitVec.shiftRight_add _ n 1).symm⟩
      rw [List.range_succ, List.map_append, run_append, BitVec.getLsbD_ushiftRight, Nat.add_zero]
      rfl

/-- The CRC is the remainder of the bits in the order in which they are sent. -/
theorem toBitVec_onewireCrc8 (addr : List UInt8) :
    (onewireCrc8 addr).toBitVec = run poly 0#8 (addr.flatMap bitsOf) := by
  have hfrom : ∀ crc : UInt8,
      (addr.foldl (fun crc inbyte => (crcTurn^[8] (crc, inbyte)).1) crc).toBitVec =
        run poly crc.toBitVec (addr.flatMap bitsOf) := by
    induction addr with
    | nil => exact fun _ => rfl
    | cons byte addr ih =>
        intro crc
        rw [List.foldl_cons, ih, (crcTurn_iterate 8 crc byte).1, List.flatMap_cons, run_append]
        rfl
  exact hfrom 0

/-! ### The table -/

theorem getD_dscrcTable (byte : UInt8) :
    (dscrcTable.getD byte.toNat 0).toBitVec = run poly byte.toBitVec (.replicate 8 false) := by
  have hall : ∀ v : BitVec 8,
      (dscrcTable.getD (⟨v⟩ : UInt8).toNat 0).toBitVec = run poly v (.replicate 8 false) := by
    decide +kernel
  exact hall byte.toBitVec

theorem load_bitsOf (byte : UInt8) : load (bitsOf byte) = byte.toBitVec := by
  have hall : ∀ v : BitVec 8, (load (bitsOf ⟨v⟩) : BitVec 8) = v := by decide +kernel
  exact hall byte.toBitVec

/-- The remainder after one more byte. -/
theorem run_bitsOf (r : BitVec 8) (byte : UInt8) :
    run poly r (bitsOf byte) = run poly (r ^^^ byte.toBitVec) (.replicate 8 false) := by
  have hload : run poly (r ^^^ load (bitsOf byte)) (.replicate (bitsOf byte).length false) =
      run poly r (bitsOf byte) := run_load (by simp)
  rw [load_bitsOf, length_bitsOf] at hload
  exact hload.symm

/-- The two versions of `onewire_crc8` agree. -/
theorem onewireCrc8Table_eq (addr : List UInt8) : onewireCrc8Table addr = onewireCrc8 addr := by
  have hstep : ∀ crc byte : UInt8,
      dscrcTable.getD (crc ^^^ byte).toNat 0 = (crcTurn^[8] (crc, byte)).1 := by
    intro crc byte
    apply UInt8.toBitVec_inj.mp
    rw [getD_dscrcTable, (crcTurn_iterate 8 crc byte).1, UInt8.toBitVec_xor]
    exact (run_bitsOf crc.toBitVec byte).symm
  simp only [onewireCrc8Table, onewireCrc8, hstep]

/-! ### Messages with their CRC -/

/-- The bits of a message that ends with its CRC. -/
def codeword (data : List UInt8) : List Bool := (data ++ [onewireCrc8 data]).flatMap bitsOf

theorem length_flatMap_bitsOf (bytes : List UInt8) :
    (bytes.flatMap bitsOf).length = 8 * bytes.length := by
  induction bytes with
  | nil => rfl
  | cons byte bytes ih =>
      rw [List.flatMap_cons, List.length_append, length_bitsOf, ih, List.length_cons]
      omega

theorem length_codeword (data : List UInt8) : (codeword data).length = 8 * (data.length + 1) := by
  rw [codeword, length_flatMap_bitsOf, List.length_append, List.length_singleton]

theorem msb_poly : poly.msb = true := by decide

theorem run_replicate_eq_zero_iff {r : BitVec 8} :
    run poly r (.replicate 8 false) = 0#8 ↔ r = 0#8 := by
  constructor
  · intro h
    by_contra hr
    exact run_replicate_ne_zero msb_poly hr 8 h
  · rintro rfl
    exact run_zero 8

/-- The CRC of a message and another byte is 0 exactly if that byte is the CRC of the message. -/
theorem onewireCrc8_append_eq_zero_iff (data : List UInt8) (byte : UInt8) :
    onewireCrc8 (data ++ [byte]) = 0 ↔ byte = onewireCrc8 data := by
  rw [← UInt8.toBitVec_inj, toBitVec_onewireCrc8, List.flatMap_append, List.flatMap_singleton,
    run_append, ← toBitVec_onewireCrc8, run_bitsOf]
  refine run_replicate_eq_zero_iff.trans ?_
  rw [BitVec.xor_eq_zero_iff, UInt8.toBitVec_inj, eq_comm]

theorem run_codeword (data : List UInt8) : run poly 0#8 (codeword data) = 0#8 := by
  rw [codeword, ← toBitVec_onewireCrc8, (onewireCrc8_append_eq_zero_iff data _).mpr rfl]
  rfl

theorem flatMap_bitsOf_inj {bytes bytes' : List UInt8}
    (h : bytes.flatMap bitsOf = bytes'.flatMap bitsOf) : bytes = bytes' := by
  have hinj : ∀ byte byte' : UInt8, bitsOf byte = bitsOf byte' → byte = byte' := by
    intro byte byte' heq
    rw [← UInt8.toBitVec_inj, ← load_bitsOf, ← load_bitsOf, heq]
  induction bytes generalizing bytes' with
  | nil =>
      have hlen := congrArg List.length h
      rw [length_flatMap_bitsOf, length_flatMap_bitsOf, List.length_nil] at hlen
      exact (List.eq_nil_of_length_eq_zero (by omega)).symm
  | cons byte bytes ih =>
      cases bytes' with
      | nil =>
          have hlen := congrArg List.length h
          rw [length_flatMap_bitsOf, length_flatMap_bitsOf, List.length_cons, List.length_nil]
            at hlen
          omega
      | cons byte' bytes' =>
          rw [List.flatMap_cons, List.flatMap_cons] at h
          obtain ⟨hbyte, hrest⟩ := List.append_inj h (by simp)
          rw [hinj byte byte' hbyte, ih hrest]

theorem codeword_inj {data data' : List UInt8} (h : codeword data = codeword data') :
    data = data' :=
  (List.append_inj' (flatMap_bitsOf_inj h) rfl).1

/-! ### Errors that are noticed -/

theorem distance_append {as as' bs bs' : List Bool} (h : as.length = as'.length) :
    distance (as ++ bs) (as' ++ bs') = distance as as' + distance bs bs' := by
  rw [distance, difference, List.zipWith_append h, List.count_append]
  rfl

theorem distance_self (bs : List Bool) : distance bs bs = 0 := by
  induction bs with
  | nil => rfl
  | cons b bs ih =>
      rw [distance, difference, List.zipWith_cons_cons, Bool.xor_self,
        List.count_cons_of_ne Bool.false_ne_true]
      exact ih

theorem onewireCrc8_replicate_append (n : ℕ) (data : List UInt8) :
    onewireCrc8 (.replicate n 0 ++ data) = onewireCrc8 data := by
  have hbits : (List.replicate n (0 : UInt8)).flatMap bitsOf = .replicate (8 * n) false := by
    induction n with
    | zero => rfl
    | succ n ih =>
        have hzero : bitsOf 0 = .replicate 8 false := by decide
        rw [List.replicate_succ, List.flatMap_cons, ih, hzero, List.replicate_append_replicate,
          Nat.mul_succ, Nat.add_comm]
  rw [← UInt8.toBitVec_inj, toBitVec_onewireCrc8, toBitVec_onewireCrc8, List.flatMap_append,
    hbits, run_append, run_zero]

theorem codeword_replicate_append (n : ℕ) (data : List UInt8) :
    codeword (.replicate n 0 ++ data) =
      (List.replicate n (0 : UInt8)).flatMap bitsOf ++ codeword data := by
  rw [codeword, onewireCrc8_replicate_append, List.append_assoc, List.flatMap_append, codeword]

/-- In messages of the same length, the CRC notices up to three wrong bits, anywhere in the message
and the CRC, exactly if the message has at most 14 bytes. -/
theorem four_le_distance_codeword_iff (n : ℕ) :
    (∀ data data' : List UInt8, data.length = n → data'.length = n → data ≠ data' →
      4 ≤ distance (codeword data) (codeword data')) ↔ n ≤ 14 := by
  constructor
  · intro h
    by_contra! hn
    obtain ⟨k, rfl⟩ := Nat.exists_eq_add_of_le' hn
    -- a wrong bit in the first of 15 bytes, and the last bit of the CRC
    have hfour := h (.replicate k 0 ++ .replicate 15 0) (.replicate k 0 ++ 1 :: .replicate 14 0)
      (by simp) (by simp) (fun heq => absurd (List.append_cancel_left heq) (by decide))
    rw [codeword_replicate_append, codeword_replicate_append, distance_append rfl, distance_self]
      at hfour
    have htwo : distance (codeword (.replicate 15 0)) (codeword (1 :: .replicate 14 0)) = 2 := by
      decide +kernel
    omega
  · intro hn data data' hlen hlen' hne
    have hperiod : ∀ d < 127, 0 < d → run poly poly (.replicate d false) ≠ poly := by
      decide +kernel
    apply four_le_distance msb_poly (by decide) hperiod
    · rw [length_codeword, length_codeword, hlen, hlen']
    · rw [length_codeword]
      omega
    · exact fun heq => hne (codeword_inj heq)
    · rw [run_codeword, run_codeword]

/-- In messages of the same length, the CRC notices every burst of at most 8 wrong bits. -/
theorem difference_codeword_ne_burst {data data' : List UInt8} (hlen : data.length = data'.length)
    (hne : data ≠ data') (m n : ℕ) (burst : List Bool) (hburst : burst.length ≤ 8) :
    difference (codeword data) (codeword data') ≠
      .replicate m false ++ burst ++ .replicate n false := by
  intro heq
  have hsame : (codeword data).length = (codeword data').length := by
    rw [length_codeword, length_codeword, hlen]
  have hzero := (run_eq_iff (g := poly) hsame).mp (by rw [run_codeword, run_codeword])
  have hmem : true ∈ burst := by
    by_contra hnot
    apply hne
    apply codeword_inj
    apply eq_of_distance hsame
    rw [distance, heq, List.count_eq_zero]
    simp [hnot]
  rw [heq] at hzero
  exact run_burst_ne_zero msb_poly hburst hmem m n hzero

theorem difference_codeword_ne_burst_twoBytes :
    difference (codeword [0x28, 1]) (codeword [0x28, 7]) ≠
      .replicate 9 false ++ [true, true] ++ .replicate 13 false := by
  apply difference_codeword_ne_burst
  · rfl
  · decide
  · decide

end WixelSdk.OneWire
