import WixelSdk.StopAndWait

/-!
# Packets and frames of the radio link

A packet buffer is a byte array. On the air its first byte is the length of the frame and the
second is the link header: two bits of packet type, four bits of payload type and the sequence bit.
In the receive ring the same two bytes hold the payload type and the payload length. `frameOf`,
`txPacketOf` and `rxPacketOf` read a buffer in these ways.
-/

namespace WixelSdk.RadioLink
open StopAndWait

abbrev Buf := ℕ → UInt8

def payloadSize : ℕ := 18

/-- RADIO_MAX_PACKET_SIZE: the payload and the one-byte link header. -/
def maxPacketSize : ℕ := 19

def rxPacketCount : ℕ := 3

def txPacketCount : ℕ := 16

def payloadTypeMask : UInt8 := 0b00011110

def packetTypeMask : UInt8 := 0xC0

def packetType : Kind → UInt8
  | .ping => 0x00
  | .nak => 0x40
  | .ack => 0x80
  | .reset => 0xC0

def bit (b : Bool) : UInt8 := if b then 1 else 0

/-- What higher-level code hands to the link and gets from it. -/
structure Packet where
  payloadType : UInt8
  payload : List UInt8
  deriving DecidableEq, Repr

/-- The payload lengths and types of the documentation, without the empty payload. -/
def Packet.Valid (p : Packet) : Prop :=
  1 ≤ p.payload.length ∧ p.payload.length ≤ payloadSize ∧ p.payloadType ≤ 15

instance (p : Packet) : Decidable p.Valid := inferInstanceAs (Decidable (_ ∧ _ ∧ _))

def payload (buf : Buf) (n : ℕ) : List UInt8 := (List.range n).map fun i => buf (2 + i)

def txPacketOf (buf : Buf) : Packet where
  payloadType := (buf 1 &&& payloadTypeMask) >>> 1
  payload := payload buf ((buf 0).toNat - 1)

def rxPacketOf (buf : Buf) : Packet where
  payloadType := buf 0
  payload := payload buf (buf 1).toNat

def kindOf (header : UInt8) : Kind :=
  if header &&& packetTypeMask = packetType .reset then .reset
  else if header &&& packetTypeMask = packetType .ack then .ack
  else if header &&& packetTypeMask = packetType .nak then .nak
  else .ping

def seqOf (header : UInt8) : Bool := header &&& 1 == 1

def frameOf (buf : Buf) : Frame Packet where
  kind := kindOf (buf 1)
  body := if 1 < (buf 0).toNat then some (seqOf (buf 1), txPacketOf buf) else none

/-- The header that `txDataPacket` writes over the old one. -/
def header (old packetType : UInt8) (seq : Bool) : UInt8 :=
  (old &&& payloadTypeMask) ||| packetType ||| bit seq

/-- The bytes that the DMA channel feeds to the radio. -/
def frameBytes (buf : Buf) : List UInt8 := (List.range ((buf 0).toNat + 1)).map buf

/-- The buffer after the DMA channel has stored the given bytes, at most `lenl` of them. -/
def dmaStore (lenl : ℕ) (bytes : List UInt8) (buf : Buf) : Buf := fun i =>
  if i < lenl then (bytes[i]?).getD (buf i) else buf i

theorem forall_byte {P : UInt8 → Prop} (h : ∀ v : BitVec 8, P ⟨v⟩) (b : UInt8) : P b :=
  h b.toBitVec

@[simp] theorem kindOf_header (old : UInt8) (k : Kind) (seq : Bool) :
    kindOf (header old (packetType k) seq) = k := by
  revert old
  apply forall_byte
  cases k <;> cases seq <;> decide +kernel

@[simp] theorem seqOf_header (old : UInt8) (k : Kind) (seq : Bool) :
    seqOf (header old (packetType k) seq) = seq := by
  revert old
  apply forall_byte
  cases k <;> cases seq <;> decide +kernel

@[simp] theorem payloadType_header (old : UInt8) (k : Kind) (seq : Bool) :
    header old (packetType k) seq &&& payloadTypeMask = old &&& payloadTypeMask := by
  revert old
  apply forall_byte
  cases k <;> cases seq <;> decide +kernel

@[simp] theorem kindOf_packetType (k : Kind) : kindOf (packetType k) = k := by
  cases k <;> rfl

theorem kindOf_eq_reset (h : UInt8) : kindOf h = .reset ↔
    h &&& packetTypeMask = packetType .reset := by
  unfold kindOf
  split_ifs with hr <;> simp [hr]

theorem kindOf_eq_ack (h : UInt8) : kindOf h = .ack ↔
    h &&& packetTypeMask = packetType .ack := by
  unfold kindOf
  split_ifs with hr ha
  · simp [hr, packetType]
  · simp [ha]
  · simp [ha]
  · simp [ha]

theorem payloadType_shift {t : UInt8} (ht : t ≤ 15) :
    (t <<< 1 &&& payloadTypeMask) >>> 1 = t := by
  revert t
  apply forall_byte
  decide +kernel

@[simp] theorem length_payload (buf : Buf) (n : ℕ) : (payload buf n).length = n := by
  simp [payload]

theorem headD_payload (buf : Buf) {n : ℕ} (hn : 0 < n) : (payload buf n).headD 0 = buf 2 := by
  obtain ⟨k, rfl⟩ := Nat.exists_eq_succ_of_ne_zero (Nat.ne_of_gt hn)
  simp [payload, List.range_succ_eq_map]

theorem payload_congr {buf buf' : Buf} {n : ℕ} (h : ∀ i < n, buf (2 + i) = buf' (2 + i)) :
    payload buf n = payload buf' n :=
  List.map_congr_left fun i hi => h i (List.mem_range.mp hi)

theorem txPacketOf_congr {buf buf' : Buf} (h₀ : buf 0 = buf' 0)
    (h₁ : buf 1 &&& payloadTypeMask = buf' 1 &&& payloadTypeMask)
    (h : ∀ i, 2 ≤ i → i ≤ (buf 0).toNat → buf i = buf' i) : txPacketOf buf = txPacketOf buf' := by
  unfold txPacketOf
  rw [h₁, ← h₀, payload_congr (fun i hi => h (2 + i) (by omega) (by omega))]

/-- Rewriting the packet type and the sequence bit does not change the packet. -/
theorem txPacketOf_header (buf : Buf) (k : Kind) (seq : Bool) :
    txPacketOf (Function.update buf 1 (header (buf 1) (packetType k) seq)) = txPacketOf buf := by
  apply txPacketOf_congr
  · simp
  · simp
  · intro i hi _
    exact Function.update_of_ne (by omega) _ _

theorem frameOf_congr {buf buf' : Buf} (h₁ : buf 1 = buf' 1)
    (h : ∀ i, i ≤ (buf 0).toNat → buf i = buf' i) : frameOf buf = frameOf buf' := by
  have h₀ := h 0 (Nat.zero_le _)
  have hp : txPacketOf buf = txPacketOf buf' :=
    txPacketOf_congr h₀ (by rw [h₁]) (fun i _ hi => h i hi)
  unfold frameOf
  rw [h₀, h₁, hp]

theorem frameBytes_getElem? (buf : Buf) {i : ℕ} (hi : i ≤ (buf 0).toNat) :
    (frameBytes buf)[i]? = some (buf i) := by
  simp [frameBytes, List.getElem?_map, List.getElem?_range (Nat.lt_succ_of_le hi)]

/-- The bytes of a frame that fits its receive buffer are stored there, whatever status bytes the
radio appends to it. -/
theorem dmaStore_frameBytes (buf old : Buf) (status : List UInt8) {lenl i : ℕ}
    (hmax : (buf 0).toNat < lenl) (hi : i ≤ (buf 0).toNat) :
    dmaStore lenl (frameBytes buf ++ status) old i = buf i := by
  have hget := frameBytes_getElem? buf hi
  have hlen := (List.getElem?_eq_some_iff.mp hget).choose
  rw [dmaStore, if_pos (Nat.lt_of_le_of_lt hi hmax), List.getElem?_append_left hlen, hget,
    Option.getD_some]

theorem frameOf_dmaStore (buf old : Buf) (status : List UInt8) {lenl : ℕ}
    (hmin : 1 ≤ (buf 0).toNat) (hmax : (buf 0).toNat < lenl) :
    frameOf (dmaStore lenl (frameBytes buf ++ status) old) = frameOf buf := by
  apply frameOf_congr (dmaStore_frameBytes buf old status hmax hmin)
  intro i hi
  rw [dmaStore_frameBytes buf old status hmax (Nat.zero_le _)] at hi
  exact dmaStore_frameBytes buf old status hmax hi

/-- The bytes of a frame determine it. -/
theorem frameOf_of_frameBytes {buf buf' : Buf} (h : frameBytes buf = frameBytes buf')
    (hmin : 1 ≤ (buf 0).toNat) : frameOf buf = frameOf buf' := by
  have hlen : (buf 0).toNat = (buf' 0).toNat := by
    have hl := congrArg List.length h
    simpa [frameBytes] using hl
  have hbyte : ∀ i, i ≤ (buf 0).toNat → buf i = buf' i := by
    intro i hi
    have hget := frameBytes_getElem? buf hi
    rw [h, frameBytes_getElem? buf' (hlen ▸ hi)] at hget
    exact (Option.some.inj hget).symm
  exact frameOf_congr (hbyte 1 hmin) hbyte

end WixelSdk.RadioLink
