import WixelSdk.Transition
import WixelSdk.UsbCdcPoll

/-!
# SET_LINE_CODING

`Stages` follows the data stages of SET_LINE_CODING as the host and the bus determine them, without
looking at the device. In every run the device is in the stage that the bus is in and calls the
handler once for each completed stage, and the data goes nowhere but to usbComLineCoding. The packets
are copied straight into it, so it is replaced as a whole only if each packet of a data stage is
empty or brings all 7 bytes.
-/

namespace WixelSdk.UsbCdcAcm
open Usb Transition

def outBytes (r : Readings) : List UInt8 := (List.range r.usbcnt0.toNat).map r.fifo

/-- The bytes received in the current data stage, if there is one, and the completed stages. -/
structure Stages where
  current : Option (List UInt8)
  completed : List (List UInt8)
  deriving DecidableEq, Repr

namespace Stages

variable (g : Stages) (r : Readings)

def afterAbort : Stages := if abortsStage r then { g with current := none } else g

def receive (bytes : List UInt8) : Stages :=
  if bytes.length < 7 then { g with current := some bytes }
  else { current := none, completed := g.completed ++ [bytes] }

def afterPacket : Stages :=
  match g.current with
  | some bytes => g.receive ((bytes ++ outBytes r).take 7)
  | none =>
      if r.usbcnt0 = 8 ∧ setLineCodingRequest (.ofFifo r.fifo) then { g with current := some [] }
      else g

def next : Stages := if r.out then (g.afterAbort r).afterPacket r else g.afterAbort r

def takes : Bool := r.out && (g.afterAbort r).current.isSome

@[simp] theorem afterAbort_completed : (g.afterAbort r).completed = g.completed := by
  unfold afterAbort
  split_ifs <;> rfl

end Stages

structure Station where
  device : Cdc
  stages : Stages

namespace Station

def init : Station := ⟨UsbCdcAcm.init, ⟨none, []⟩⟩

def step (serial : ℕ → UInt8) (s : Station) (r : Readings) : Option Station :=
  some ⟨(s.device.usbPoll (usbCdcAcm serial) r).1, s.stages.next r⟩

/-- A packet of a data stage is empty or brings all 7 bytes. -/
def WholePackets (s : Station) (r : Readings) : Prop :=
  s.stages.takes r = true → r.usbcnt0 = 0 ∨ 7 ≤ r.usbcnt0

instance (s : Station) (r : Readings) : Decidable (s.WholePackets r) :=
  inferInstanceAs (Decidable (_ → _))

end Station

/-- The device is in the data stage that the bus is in. -/
def InCurrent (u : Cdc) (current : Option (List UInt8)) : Prop :=
  match current with
  | some bytes => InStage u bytes.length
  | none => u.controlTransferState ≠ .write

structure Tracks (s : Station) : Prop where
  current : InCurrent s.device s.stages.current
  changes : s.device.vars.lineCodingChanges = s.stages.completed.length
  lengths : ∀ bytes ∈ s.stages.completed, bytes.length = 7

variable {serial : ℕ → UInt8} {r : Readings} {u : Cdc} {g : Stages} {s : Station}

theorem InCurrent.write_iff (h : InCurrent u g.current) :
    u.controlTransferState = .write ↔ g.current.isSome = true := by
  unfold InCurrent at h
  cases hc : g.current with
  | none =>
      rw [hc] at h
      exact iff_of_false h (by simp)
  | some bytes =>
      rw [hc] at h
      exact iff_of_true h.state rfl

theorem InCurrent.takes_eq (h : InCurrent u g.current) : g.takes r = u.takesData r := by
  unfold Stages.takes Device.takesData
  by_cases ho : r.out = true
  · have ha := abortsStage_of_ep0 (Device.out_eq_true ho)
    rw [Device.ready_controlTransferState, ho, Bool.true_and, Bool.true_and, ← ha]
    unfold Stages.afterAbort
    by_cases hab : abortsStage r = true
    · rw [if_pos hab, if_pos hab]
      rfl
    · rw [if_neg hab, if_neg hab, Bool.eq_iff_iff, ← h.write_iff, decide_eq_true_eq]
  · rw [Bool.eq_false_iff.mpr ho, Bool.false_and, Bool.false_and]

/-- The stage before a data packet. -/
theorem InCurrent.exists_of_takesData (h : InCurrent u g.current) (hd : u.takesData r = true) :
    ∃ bytes, g.current = some bytes ∧ g.afterAbort r = g ∧ InStage u bytes.length := by
  have ht : g.takes r = true := h.takes_eq.trans hd
  obtain ⟨ho, hsome⟩ := Bool.and_eq_true_iff.mp ht
  have hab : ¬ abortsStage r = true := by
    intro hab
    rw [Stages.afterAbort, if_pos hab] at hsome
    cases hsome
  have hsame : g.afterAbort r = g := if_neg hab
  rw [hsame] at hsome
  obtain ⟨bytes, hb⟩ := Option.isSome_iff_exists.mp hsome
  rw [hb] at h
  exact ⟨bytes, hb, hsame, h⟩

theorem length_received (bytes : List UInt8) (r : Readings) (hb : bytes.length < 7) :
    ((bytes ++ outBytes r).take 7).length = bytes.length + taken r bytes.length := by
  rw [List.length_take, List.length_append, outBytes, List.length_map, List.length_range, taken]
  omega

/-- After a packet that is not data. -/
theorem next_of_other (h : InCurrent u g.current) (hd : u.takesData r = false) :
    g.next r = if u.takesSetup r = true ∧ setLineCodingRequest (.ofFifo r.fifo) then
      { g.afterAbort r with current := some [] } else g.afterAbort r := by
  have ht : g.takes r = false := h.takes_eq.trans hd
  unfold Stages.next
  by_cases ho : r.out = true
  · rw [Stages.takes, ho, Bool.true_and] at ht
    have hnone : (g.afterAbort r).current = none := by
      rw [← Option.not_isSome_iff_eq_none, ht]
      nofun
    have hready : (u.ready r).controlTransferState ≠ .write := by
      intro hw
      rw [Device.takesData, ho, hw] at hd
      cases hd
    have hsetup : u.takesSetup r = true ↔ r.usbcnt0 = 8 := by
      rw [Device.takesSetup_iff]
      exact ⟨fun hs => hs.2.2, fun hc => ⟨ho, hready, hc⟩⟩
    rw [if_pos ho, Stages.afterPacket, hnone]
    simp only [hsetup]
  · have hs : ¬ u.takesSetup r = true := fun hs => ho (Device.takesSetup_iff.mp hs).1
    rw [if_neg ho, if_neg fun hc => hs hc.1]

/-- A call that completes no stage. -/
theorem Tracks.same {x : Cdc} {g : Stages} (h : Tracks s) (hk : Keeps s.device x)
    (hg : g.completed = s.stages.completed) (hin : InCurrent x g.current) : Tracks ⟨x, g⟩ where
  current := hin
  changes := by
    dsimp only
    rw [hg]
    exact hk.lineCodingChanges.trans h.changes
  lengths := by
    dsimp only
    rw [hg]
    exact h.lengths

theorem Tracks.data (h : Tracks s) (hd : s.device.takesData r = true) :
    Tracks ⟨(s.device.usbPoll (usbCdcAcm serial) r).1, s.stages.next r⟩ := by
  obtain ⟨bytes, hb, hsame, hstage⟩ := h.current.exists_of_takesData hd
  obtain ⟨-, hgo, hdone⟩ := usbPoll_data serial hd hstage
  have hlen := length_received bytes r hstage.lt
  have hout : r.out = true := (Device.takesData_iff.mp hd).1
  have hnext : s.stages.next r = s.stages.receive ((bytes ++ outBytes r).take 7) := by
    rw [Stages.next, if_pos hout, hsame, Stages.afterPacket, hb]
  by_cases hlt : bytes.length + taken r bytes.length < 7
  · obtain ⟨hin, hchanges⟩ := hgo hlt
    rw [Stages.receive, hlen, if_pos hlt] at hnext
    rw [hnext]
    refine ⟨?_, hchanges.trans h.changes, h.lengths⟩
    change InStage _ ((bytes ++ outBytes r).take 7).length
    rw [hlen]
    exact hin
  · have hle : taken r bytes.length ≤ 7 - bytes.length := Nat.min_le_right _ _
    have hseven : bytes.length + taken r bytes.length = 7 := by
      have hlt7 := hstage.lt
      omega
    obtain ⟨hnot, hchanges⟩ := hdone hseven
    rw [Stages.receive, hlen, if_neg hlt] at hnext
    rw [hnext]
    refine ⟨hnot, ?_, fun b hm => ?_⟩
    · rw [hchanges, h.changes, List.length_append, List.length_singleton]
    · rcases List.mem_append.mp hm with hm | hm
      · exact h.lengths b hm
      · rw [List.mem_singleton.mp hm, hlen, hseven]

theorem Tracks.setup (h : Tracks s) (hd : s.device.takesData r = false)
    (hs : s.device.takesSetup r = true) :
    Tracks ⟨(s.device.usbPoll (usbCdcAcm serial) r).1, s.stages.next r⟩ := by
  obtain ⟨hk, hset, hno⟩ := usbPoll_setup serial hs
  have hnext := next_of_other h.current hd
  rw [hs] at hnext
  by_cases hreq : setLineCodingRequest (.ofFifo r.fifo)
  · rw [if_pos ⟨rfl, hreq⟩] at hnext
    rw [hnext]
    exact h.same hk (Stages.afterAbort_completed _ _) (hset hreq)
  · have hnone : (s.stages.afterAbort r).current = none := by
      have ht := h.current.takes_eq.trans hd
      rw [Stages.takes, (Device.takesSetup_iff.mp hs).1, Bool.true_and] at ht
      rw [← Option.not_isSome_iff_eq_none, ht]
      nofun
    rw [if_neg fun hc => hreq hc.2] at hnext
    rw [hnext]
    apply h.same hk (Stages.afterAbort_completed _ _)
    rw [hnone]
    exact hno hreq

theorem Tracks.other (h : Tracks s) (hd : s.device.takesData r = false)
    (hs : s.device.takesSetup r = false) :
    Tracks ⟨(s.device.usbPoll (usbCdcAcm serial) r).1, s.stages.next r⟩ := by
  obtain ⟨hk, hkeep, hleave⟩ := usbPoll_other serial hd hs
  have hnext := next_of_other h.current hd
  have hc := h.current
  rw [hs, if_neg fun hc => by cases hc.1] at hnext
  rw [hnext]
  apply h.same hk (Stages.afterAbort_completed _ _)
  unfold Stages.afterAbort
  by_cases ha : abortsStage r = true
  · rw [if_pos ha]
    exact hleave (Or.inr ha)
  · rw [if_neg ha]
    unfold InCurrent at hc ⊢
    cases hcur : s.stages.current with
    | none =>
        rw [hcur] at hc
        exact hleave (Or.inl hc)
    | some bytes =>
        rw [hcur] at hc
        exact hkeep _ hc (Bool.eq_false_iff.mpr ha)

/-- In every run, whatever the packets. -/
theorem Tracks.step {s t : Station} (h : Tracks s) (he : s.step serial r = some t) : Tracks t := by
  obtain rfl := Option.some.inj he
  cases hd : s.device.takesData r with
  | true => exact h.data hd
  | false =>
      cases hs : s.device.takesSetup r with
      | true => exact h.setup hd hs
      | false => exact h.other hd hs

theorem tracks_init : Tracks Station.init := ⟨nofun, rfl, by simp [Station.init]⟩

/-! ### Whole packets -/

/-- The line coding is that of the last completed stage. -/
structure Whole (s : Station) : Prop where
  start : ∀ bytes, s.stages.current = some bytes → bytes = []
  coding : lineCoding s.device = s.stages.completed.getLastD initialLineCoding

theorem lineCoding_congr {u v : Cdc}
    (h : ∀ i < 7, v.xdata (.driver .usbComLineCoding) i = u.xdata (.driver .usbComLineCoding) i) :
    lineCoding v = lineCoding u := by
  apply List.map_congr_left
  intro i hi
  exact h i (List.mem_range.mp hi)

/-- A packet of a data stage that has received nothing yet. -/
theorem Whole.data {x : Cdc} (h : Whole s) (hd : s.device.takesData r = true)
    (hb : s.stages.current = some []) (hsame : s.stages.afterAbort r = s.stages)
    (hw : r.usbcnt0 = 0 ∨ 7 ≤ r.usbcnt0)
    (hmem : ∀ i, x.xdata (.driver .usbComLineCoding) i =
      if i < taken r 0 then r.fifo i else s.device.xdata (.driver .usbComLineCoding) i) :
    Whole ⟨x, s.stages.next r⟩ := by
  have hout : r.out = true := (Device.takesData_iff.mp hd).1
  have hnext : s.stages.next r = s.stages.receive ((outBytes r).take 7) := by
    rw [Stages.next, if_pos hout, hsame, Stages.afterPacket, hb]
    rfl
  have hlen := length_received [] r (by decide)
  rw [List.nil_append, List.length_nil, Nat.zero_add] at hlen
  rw [Stages.receive, hlen] at hnext
  rcases hw with h0 | h7
  · have htaken : taken r 0 = 0 := by rw [taken, h0]; rfl
    have hempty : (outBytes r).take 7 = [] := by rw [outBytes, h0]; rfl
    rw [if_pos (by omega), hempty] at hnext
    rw [hnext]
    refine ⟨fun bytes he => (Option.some.inj he).symm, ?_⟩
    rw [← h.coding]
    apply lineCoding_congr
    intro i _
    rw [hmem, htaken, if_neg (Nat.not_lt_zero i)]
  · have hcnt : 7 ≤ r.usbcnt0.toNat := UInt8.le_iff_toNat_le.mp h7
    have htaken : taken r 0 = 7 := by
      rw [taken]
      omega
    have hbytes : (outBytes r).take 7 = (List.range 7).map r.fifo := by
      rw [outBytes, ← List.map_take, List.take_range, Nat.min_eq_left hcnt]
    rw [if_neg (by omega), hbytes] at hnext
    rw [hnext]
    refine ⟨fun _ he => (by cases he), ?_⟩
    rw [List.getLastD_concat]
    apply List.map_congr_left
    intro i hi
    have hi7 : i < 7 := List.mem_range.mp hi
    rw [hmem, htaken, if_pos hi7]

theorem Whole.other {x : Cdc} (h : Whole s) (ht : InCurrent s.device s.stages.current)
    (hd : s.device.takesData r = false)
    (hx : x.xdata (.driver .usbComLineCoding) = s.device.xdata (.driver .usbComLineCoding)) :
    Whole ⟨x, s.stages.next r⟩ := by
  have hcoding : lineCoding x = lineCoding s.device := lineCoding_congr fun i _ => by rw [hx]
  have hstart : ∀ bytes, (s.stages.afterAbort r).current = some bytes → bytes = [] := by
    intro bytes hb
    unfold Stages.afterAbort at hb
    split_ifs at hb
    · exact h.start bytes hb
  rw [next_of_other ht hd]
  split_ifs
  · refine ⟨fun bytes he => (Option.some.inj he).symm, ?_⟩
    rw [Stages.afterAbort_completed]
    exact hcoding.trans h.coding
  · refine ⟨hstart, ?_⟩
    rw [Stages.afterAbort_completed]
    exact hcoding.trans h.coding

theorem Whole.step {s t : Station} (h : Whole s) (ht : Tracks s) (hw : s.WholePackets r)
    (he : s.step serial r = some t) : Whole t := by
  obtain rfl := Option.some.inj he
  cases hd : s.device.takesData r with
  | true =>
      obtain ⟨bytes, hb, hsame, hstage⟩ := ht.current.exists_of_takesData hd
      obtain rfl := h.start bytes hb
      obtain ⟨hmem, -, -⟩ := usbPoll_data serial hd hstage
      apply h.data hd hb hsame (hw (ht.current.takes_eq.trans hd))
      intro i
      simpa using hmem (.driver .usbComLineCoding) i
  | false =>
      apply h.other ht.current hd
      cases hs : s.device.takesSetup r with
      | true => exact (usbPoll_setup serial hs).1.lineCoding
      | false => exact (usbPoll_other serial hd hs).1.lineCoding

theorem whole_init : Whole Station.init := ⟨nofun, by decide⟩

/-- The data of a stage goes nowhere but to the 7 bytes of usbComLineCoding. -/
theorem Tracks.data_frame (h : Tracks s) (ht : s.stages.takes r = true) {o : Object CdcObject}
    {i : ℕ} (ho : ¬ (o = .driver .usbComLineCoding ∧ i < 7)) :
    (s.device.usbPoll (usbCdcAcm serial) r).1.xdata o i = s.device.xdata o i := by
  have hd : s.device.takesData r = true := h.current.takes_eq.symm.trans ht
  obtain ⟨bytes, -, -, hstage⟩ := h.current.exists_of_takesData hd
  obtain ⟨hmem, -, -⟩ := usbPoll_data serial hd hstage
  have hle : taken r bytes.length ≤ 7 - bytes.length := Nat.min_le_right _ _
  rw [hmem, if_neg fun hc => ho ⟨hc.1, by omega⟩]

/-- If each packet of a data stage is empty or brings all 7 bytes, then usbComLineCoding is what the
last completed stage has brought. -/
theorem set_line_coding_atomic (serial : ℕ → UInt8) (s : Station)
    (hr : Run (Station.step serial) Station.WholePackets Station.init s) :
    lineCoding s.device = s.stages.completed.getLastD initialLineCoding ∧
    (∀ bytes ∈ s.stages.completed, bytes.length = 7) ∧
    s.device.vars.lineCodingChanges = s.stages.completed.length ∧
    ∀ r o i, s.stages.takes r = true → ¬ (o = .driver .usbComLineCoding ∧ i < 7) →
      (s.device.usbPoll (usbCdcAcm serial) r).1.xdata o i = s.device.xdata o i := by
  have hinv : Tracks s ∧ Whole s := by
    apply hr.invariant ⟨tracks_init, whole_init⟩
    rintro s r t ⟨ht, hw⟩ hc he
    exact ⟨ht.step he, hw.step ht hc he⟩
  exact ⟨hinv.2.coding, hinv.1.lengths, hinv.1.changes,
    fun _ _ _ ht ho => hinv.1.data_frame ht ho⟩

/-- 115200 baud, in one packet. -/
theorem set_line_coding_in_one_packet :
    ∃ s, Run (Station.step fun _ => 0) Station.WholePackets Station.init s ∧
      lineCoding s.device = [0x00, 0xC2, 0x01, 0x00, 0, 0, 8] ∧
      s.device.vars.lineCodingChanges = 1 := by
  have hrun : (exec (Station.step fun _ => 0) Station.WholePackets Station.init
      [.packet 0x01 [0x21, 0x20, 0, 0, 0, 0, 7, 0],
        .packet 0x01 [0x00, 0xC2, 0x01, 0x00, 0, 0, 8]]).map (fun s => s.stages.completed) =
      some [[0x00, 0xC2, 0x01, 0x00, 0, 0, 8]] := by
    decide +kernel
  obtain ⟨s, hr, hs⟩ := exists_run_of_exec hrun
  obtain ⟨hcoding, -, hchanges, -⟩ := set_line_coding_atomic (fun _ => 0) s hr
  rw [hs] at hcoding hchanges
  exact ⟨s, hr, hcoding, hchanges⟩

/-- A data stage that is ended after 4 of its 7 bytes. -/
theorem set_line_coding_torn :
    ¬ ∀ s, Run (Station.step fun _ => 0) (fun _ _ => True) Station.init s →
      lineCoding s.device = s.stages.completed.getLastD initialLineCoding := by
  intro h
  have hrun : (exec (Station.step fun _ => 0) (fun _ _ => True) Station.init
      [.packet 0x01 [0x21, 0x20, 0, 0, 0, 0, 7, 0], .packet 0x01 [0x00, 0xC2, 0x01, 0x00],
        .packet 0x10 []]).map (fun s => (lineCoding s.device, s.stages.completed)) =
      some ([0x00, 0xC2, 0x01, 0x00, 0, 0, 8], []) := by
    decide +kernel
  obtain ⟨s, hr, hs⟩ := exists_run_of_exec hrun
  have hcoding := h s hr
  obtain ⟨hl, hc⟩ := Prod.mk.inj hs
  rw [hl, hc] at hcoding
  revert hcoding
  decide

end WixelSdk.UsbCdcAcm
