import WixelSdk.UsbComRx

/-!
# Receiving a block

`usbComRxReceive` reads its bytes by `usbReadFifo`, which does not need USBINDEX because each FIFO
has a register of its own. Then it reads USBCNTL and writes USBCSOL without selecting the data
endpoint as `usbComRxReceiveByte` does. After `usbComService` they belong to the notification
endpoint, so the packet is not released when its last byte has been read.
-/

namespace WixelSdk.UsbCom
open Usb Transition

namespace ComRx

def usbReadFifo (endpointNumber : UInt8) : ℕ → ComRx → List UInt8 × ComRx
  | 0, c => ([], c)
  | count + 1, c =>
      let (byte, e) := (c.out endpointNumber).read
      let (bytes, d) := usbReadFifo endpointNumber count (c.setOut endpointNumber e)
      (byte :: bytes, d)

def usbComRxReceive (c : ComRx) (size : UInt8) : List UInt8 × ComRx :=
  let (buffer, d) := c.usbReadFifo 4 size.toNat
  (buffer, if d.selected.usbcntl = 0 then d.clearOutpktRdy else d)

/-- `usbComRxReceive` and calls of `usbComRxReceiveByte` return the same bytes and leave the same
state but for USBINDEX, and no other endpoint is touched. -/
structure Agrees (c : ComRx) (size : UInt8) : Prop where
  bytes : (c.usbComRxReceive size).1 = (receiveBytes size.toNat c).1
  state : (c.usbComRxReceive size).2.select 4 = (receiveBytes size.toNat c).2.select 4
  others : ∀ n ≠ 4, (c.usbComRxReceive size).2.out n = c.out n

/-- The data endpoint is selected, or some of the packet remains and the endpoint that is selected
has no OUTPKT_RDY that could be cleared. -/
def Unaffected (c : ComRx) (size : UInt8) : Prop :=
  c.com.device.usbindex = 4 ∨ size.toNat < (c.out 4).unread.length ∧
    (c.selected.usbcntl = 0 → c.selected.outpktRdy = false)

instance (c : ComRx) (size : UInt8) : Decidable (c.Unaffected size) :=
  inferInstanceAs (Decidable (_ ∨ _))

variable {c d : ComRx} {size : UInt8} {n : ℕ}

/-! ### The bytes -/

theorem usbReadFifo_eq (hn : n ≤ (c.out 4).unread.length) :
    c.usbReadFifo 4 n = ((c.out 4).unread.take n,
      c.setOut 4 ⟨(c.out 4).outpktRdy, (c.out 4).unread.drop n⟩) := by
  induction n generalizing c with
  | zero =>
      rw [List.take_zero, List.drop_zero, setOut_eq_self rfl]
      rfl
  | succ n ih =>
      obtain ⟨byte, rest, hu⟩ := List.exists_cons_of_length_pos (Nat.zero_lt_of_lt hn)
      have hread : (c.out 4).read = (byte, ⟨(c.out 4).outpktRdy, rest⟩) := by
        rw [EndpointOut.read, hu]
        rfl
      have hrest := ih (c := c.setOut 4 ⟨(c.out 4).outpktRdy, rest⟩) (by
        rw [setOut_self]
        rw [hu, List.length_cons] at hn
        exact Nat.le_of_succ_le_succ hn)
      rw [usbReadFifo, hread]
      dsimp only
      rw [hrest, setOut_setOut, setOut_self, hu]
      rfl

theorem Reads.eq {byte : UInt8} {rest : List UInt8} (h : Reads c byte rest d) :
    d = (c.select 4).setOut 4 ⟨(c.out 4).outpktRdy && decide (rest ≠ []), rest⟩ := by
  have hout : d.out = Function.update c.out 4
      ⟨(c.out 4).outpktRdy && decide (rest ≠ []), rest⟩ := by
    funext n
    by_cases hn : n = 4
    · rw [hn, h.data, Function.update_self]
    · rw [h.others n hn, Function.update_of_ne hn]
  have hcom := h.com
  cases d
  subst hout hcom
  rfl

theorem receiveBytes_succ (hl : (c.out 4).unread.length ≤ 64)
    (hn : n < (c.out 4).unread.length) :
    receiveBytes (n + 1) c = ((c.out 4).unread.take (n + 1), (c.select 4).setOut 4
      ⟨(c.out 4).outpktRdy && decide ((c.out 4).unread.drop (n + 1) ≠ []),
        (c.out 4).unread.drop (n + 1)⟩) := by
  induction n generalizing c with
  | zero =>
      obtain ⟨byte, rest, hu⟩ := List.exists_cons_of_length_pos hn
      obtain ⟨d, hd, hreads⟩ := usbComRxReceiveByte_eq hl hu
      rw [hu, List.take_succ_cons, List.drop_succ_cons, List.take_zero, List.drop_zero, ← hreads.eq,
        receiveBytes, hd]
      rfl
  | succ n ih =>
      obtain ⟨byte, rest, hu⟩ := List.exists_cons_of_length_pos (Nat.zero_lt_of_lt hn)
      obtain ⟨d, hd, hreads⟩ := usbComRxReceiveByte_eq hl hu
      rw [hu, List.length_cons] at hn
      have hlt : n < rest.length := Nat.lt_of_succ_lt_succ hn
      have hle : rest.length ≤ 64 := by
        rw [hu, List.length_cons] at hl
        exact Nat.le_of_succ_le hl
      have hne : rest ≠ [] := List.ne_nil_of_length_pos (Nat.zero_lt_of_lt hlt)
      have hdata : d.out 4 = ⟨(c.out 4).outpktRdy, rest⟩ := by
        rw [hreads.data, decide_eq_true hne, Bool.and_true]
      have hrest := ih (c := d) (by rw [hdata]; exact hle) (by rw [hdata]; exact hlt)
      have htwice (e : EndpointOut) : (d.select 4).setOut 4 e = (c.select 4).setOut 4 e := by
        rw [hreads.eq]
        exact setOut_setOut (c.select 4) 4 _ e
      rw [receiveBytes, hd]
      dsimp only
      rw [hrest, hdata, htwice, hu, List.take_succ_cons, List.drop_succ_cons]

theorem receiveBytes_take (hl : (c.out 4).unread.length ≤ 64) (hpos : 1 ≤ n)
    (hn : n ≤ (c.out 4).unread.length) :
    receiveBytes n c = ((c.out 4).unread.take n, (c.select 4).setOut 4
      ⟨(c.out 4).outpktRdy && decide ((c.out 4).unread.drop n ≠ []),
        (c.out 4).unread.drop n⟩) := by
  obtain ⟨m, rfl⟩ := Nat.exists_eq_succ_of_ne_zero (Nat.ne_of_gt hpos)
  exact receiveBytes_succ hl hn

/-! ### OUTPKT_RDY -/

theorem usbComRxReceive_eq (hn : size.toNat ≤ (c.out 4).unread.length) :
    c.usbComRxReceive size = ((c.out 4).unread.take size.toNat,
      let d := c.setOut 4 ⟨(c.out 4).outpktRdy, (c.out 4).unread.drop size.toNat⟩
      if d.selected.usbcntl = 0 then d.clearOutpktRdy else d) := by
  rw [usbComRxReceive, usbReadFifo_eq hn]

/-- The data endpoint is selected. -/
theorem usbComRxReceive_of_selected (hk : c.com.device.usbindex = 4)
    (hl : (c.out 4).unread.length ≤ 64) (hn : size.toNat ≤ (c.out 4).unread.length) :
    c.usbComRxReceive size = ((c.out 4).unread.take size.toNat, c.setOut 4
      ⟨(c.out 4).outpktRdy && decide ((c.out 4).unread.drop size.toNat ≠ []),
        (c.out 4).unread.drop size.toNat⟩) := by
  have hselect : c.select 4 = c := by
    rw [select, Com.select, ← hk]
  have hrest : ((c.out 4).unread.drop size.toNat).length ≤ 64 := by
    rw [List.length_drop]
    omega
  rw [usbComRxReceive_eq hn]
  dsimp only
  rw [← hselect, selected_setOut, clearOutpktRdy_setOut, hselect]
  split_ifs with hzero
  · rw [EndpointOut.usbcntl_eq_zero_iff hrest] at hzero
    dsimp only at hzero
    rw [hzero, decide_eq_false (not_not.mpr rfl), Bool.and_false]
    rfl
  · rw [EndpointOut.usbcntl_eq_zero_iff hrest] at hzero
    rw [decide_eq_true hzero, Bool.and_true]

/-- Another endpoint is selected. -/
theorem usbComRxReceive_of_other (hk : c.com.device.usbindex ≠ 4)
    (hn : size.toNat ≤ (c.out 4).unread.length) :
    c.usbComRxReceive size = ((c.out 4).unread.take size.toNat,
      let d := c.setOut 4 ⟨(c.out 4).outpktRdy, (c.out 4).unread.drop size.toNat⟩
      if c.selected.usbcntl = 0 then d.setOut c.com.device.usbindex c.selected.release else d) := by
  have hselected (e : EndpointOut) : (c.setOut 4 e).selected = c.selected := setOut_of_ne hk c e
  have hclear (e : EndpointOut) : (c.setOut 4 e).clearOutpktRdy =
      (c.setOut 4 e).setOut c.com.device.usbindex c.selected.release := by
    rw [clearOutpktRdy, hselected]
    rfl
  rw [usbComRxReceive_eq hn]
  dsimp only
  rw [hselected, hclear]

/-- The data endpoint after a block has been read while another endpoint is selected. -/
theorem data_of_other (hk : c.com.device.usbindex ≠ 4)
    (hn : size.toNat ≤ (c.out 4).unread.length) : (c.usbComRxReceive size).2.out 4 =
      ⟨(c.out 4).outpktRdy, (c.out 4).unread.drop size.toNat⟩ := by
  rw [usbComRxReceive_of_other hk hn]
  dsimp only
  split_ifs
  · rw [setOut_of_ne (Ne.symm hk), setOut_self]
  · rw [setOut_self]

structure Held (c : ComRx) : Prop where
  outpktRdy : (c.out 4).unread ≠ [] → (c.out 4).outpktRdy = true
  le : (c.out 4).unread.length ≤ 64

theorem Held.usbComRxReceive (h : c.Held) (hn : size.toNat ≤ (c.out 4).unread.length) :
    (c.usbComRxReceive size).2.com = c.com ∧ (c.usbComRxReceive size).2.Held ∧
      ((c.usbComRxReceive size).2.out 4).unread = (c.out 4).unread.drop size.toNat := by
  have hle : ((c.out 4).unread.drop size.toNat).length ≤ 64 := by
    rw [List.length_drop]
    exact Nat.le_trans (Nat.sub_le _ _) h.le
  have hheld : (c.out 4).unread.drop size.toNat ≠ [] → (c.out 4).outpktRdy = true := fun hne =>
    h.outpktRdy fun hnil => hne (by rw [hnil, List.drop_nil])
  by_cases hk : c.com.device.usbindex = 4
  · rw [usbComRxReceive_of_selected hk h.le hn]
    refine ⟨rfl, ⟨fun hne => ?_, ?_⟩, ?_⟩
    · rw [setOut_self] at hne ⊢
      dsimp only at hne ⊢
      rw [hheld hne, decide_eq_true hne]
      rfl
    · rw [setOut_self]
      exact hle
    · rw [setOut_self]
  · have hdata := data_of_other hk hn
    refine ⟨?_, ⟨fun hne => ?_, ?_⟩, ?_⟩
    · rw [usbComRxReceive_of_other hk hn]
      dsimp only
      split_ifs <;> rfl
    · rw [hdata] at hne ⊢
      exact hheld hne
    · rw [hdata]
      exact hle
    · rw [hdata]

theorem drop_ne_nil_iff {bytes : List UInt8} : bytes.drop n ≠ [] ↔ n < bytes.length := by
  rw [ne_eq, List.drop_eq_nil_iff, Nat.not_le]

theorem Agrees.unaffected (hagrees : c.Agrees size) (h : c.Held) (hpos : 1 ≤ size.toNat)
    (hn : size.toNat ≤ (c.out 4).unread.length) : c.Unaffected size := by
  by_cases hk : c.com.device.usbindex = 4
  · exact Or.inl hk
  have hrdy := h.outpktRdy (List.ne_nil_of_length_pos (Nat.lt_of_lt_of_le hpos hn))
  have hdata := congrArg (fun d : ComRx => (d.out 4).outpktRdy) hagrees.state
  change ((c.usbComRxReceive size).2.out 4).outpktRdy =
    ((receiveBytes size.toNat c).2.out 4).outpktRdy at hdata
  have hother := hagrees.others c.com.device.usbindex hk
  rw [data_of_other hk hn, receiveBytes_take h.le hpos hn, setOut_self, hrdy, Bool.true_and] at hdata
  refine Or.inr ⟨drop_ne_nil_iff.mp (of_decide_eq_true hdata.symm), fun hzero => ?_⟩
  rw [usbComRxReceive_of_other hk hn] at hother
  dsimp only at hother
  rw [if_pos hzero, setOut_self] at hother
  exact (congrArg EndpointOut.outpktRdy hother).symm

theorem Unaffected.agrees (hu : c.Unaffected size) (h : c.Held) (hpos : 1 ≤ size.toNat)
    (hn : size.toNat ≤ (c.out 4).unread.length) : c.Agrees size := by
  have hblock : c.usbComRxReceive size = ((c.out 4).unread.take size.toNat, c.setOut 4
      ⟨(c.out 4).outpktRdy && decide ((c.out 4).unread.drop size.toNat ≠ []),
        (c.out 4).unread.drop size.toNat⟩) := by
    by_cases hk : c.com.device.usbindex = 4
    · exact usbComRxReceive_of_selected hk h.le hn
    · obtain ⟨hlt, hclear⟩ := hu.resolve_left hk
      rw [usbComRxReceive_of_other hk hn, decide_eq_true (drop_ne_nil_iff.mpr hlt), Bool.and_true]
      dsimp only
      split_ifs with hzero
      · have hsame (e : EndpointOut) : (c.setOut 4 e).out c.com.device.usbindex = c.selected :=
          setOut_of_ne hk c e
        rw [EndpointOut.release_eq_self (hclear hzero), setOut_eq_self (hsame _)]
      · rfl
  have hreceive := receiveBytes_take h.le hpos hn
  refine ⟨?_, ?_, fun m hm => ?_⟩
  · rw [hblock, hreceive]
  · rw [hblock, hreceive]
    rfl
  · rw [hblock]
    exact setOut_of_ne hm c _

end ComRx

/-! ### Runs -/

inductive BlockAction
  | rx (a : RxAction)
  | rxReceive (size : UInt8)
  | otherCall (usbindex : UInt8)

namespace Receiver

/-- Another function of the library leaves an endpoint selected. -/
def blockStep (serial : ℕ → UInt8) (s : Receiver) : BlockAction → Option Receiver
  | .rx a => s.step serial a
  | .rxReceive size =>
      let (bytes, c) := s.rx.usbComRxReceive size
      some { s with
        rx := c
        received := s.received ++ bytes
        promised := s.promised - size.toNat }
  | .otherCall usbindex => some { s with rx := s.rx.select usbindex }

def BlockRule (serial : ℕ → UInt8) (s : Receiver) : BlockAction → Prop
  | .rx a => s.Rule serial a
  | .rxReceive size => size.toNat ≤ s.promised
  | .otherCall _ => True

instance (serial : ℕ → UInt8) (s : Receiver) (a : BlockAction) :
    Decidable (s.BlockRule serial a) := by
  rcases a with ⟨⟩ <;> dsimp only [BlockRule] <;> infer_instance

/-- No more bytes are promised than the packet has left. -/
structure Promises (s : Receiver) : Prop where
  configured : s.rx.com.device.usbDeviceState = .configured
  held : s.rx.Held
  promised : s.promised ≤ (s.rx.out 4).unread.length

variable {serial : ℕ → UInt8} {s t : Receiver} {c : ComRx} {size : UInt8}

theorem promises_start (h : Ready c) : (start c).Promises where
  configured := h.configured
  held := by
    have hfree : (start c).rx.out 4 = .free := h.free
    refine ⟨fun hne => absurd ?_ hne, ?_⟩
    · rw [hfree]
      rfl
    · rw [hfree]
      exact Nat.zero_le _
  promised := Nat.zero_le _

theorem Promises.packet {bytes : List UInt8} (h : s.Promises) (hl : bytes.length ≤ 64)
    (he : s.step serial (.packet bytes) = some t) : t.Promises := by
  obtain ⟨hr, rfl⟩ := packet_eq he
  have hnil : (s.rx.out 4).unread = [] := not_not.mp fun hne =>
    Bool.eq_false_iff.mp hr (h.held.outpktRdy hne)
  have hpromised := h.promised
  rw [hnil] at hpromised
  refine ⟨h.configured, ⟨fun _ => ?_, ?_⟩, Nat.le_trans hpromised (Nat.zero_le _)⟩
  · rw [ComRx.setOut_self]
  · rw [ComRx.setOut_self]
    exact hl

theorem Promises.rxAvailable (h : s.Promises) (he : s.step serial .rxAvailable = some t) :
    t.Promises := by
  obtain ⟨n, rfl, hn⟩ := rxAvailable_eq h.configured h.held.le he
  refine ⟨h.configured, ⟨h.held.outpktRdy, h.held.le⟩, ?_⟩
  rcases hn with rfl | rfl
  · exact h.promised
  · exact Nat.le_refl _

theorem Promises.rxReceiveByte (h : s.Promises) (hp : 0 < s.promised)
    (he : s.step serial .rxReceiveByte = some t) : t.Promises := by
  obtain ⟨byte, rest, d, hu, hreads, hle, rfl⟩ := rxReceiveByte_eq hp h.promised h.held.le he
  have hrdy := h.held.outpktRdy (by rw [hu]; exact List.cons_ne_nil _ _)
  have hlen := h.held.le
  rw [hu, List.length_cons] at hlen
  refine ⟨?_, ⟨fun hne => ?_, ?_⟩, ?_⟩
  · dsimp only
    rw [hreads.com]
    exact h.configured
  · dsimp only at hne ⊢
    rw [hreads.data] at hne ⊢
    rw [hrdy, Bool.true_and]
    exact decide_eq_true hne
  · dsimp only
    rw [hreads.data]
    exact Nat.le_of_succ_le hlen
  · dsimp only
    rw [hreads.data]
    exact hle

theorem Promises.step {a : RxAction} (h : s.Promises) (hr : s.Rule serial a)
    (he : s.step serial a = some t) : t.Promises := by
  cases a with
  | packet bytes => exact h.packet hr he
  | rxAvailable => exact h.rxAvailable he
  | rxReceiveByte => exact h.rxReceiveByte hr he
  | service readings now reads =>
      obtain ⟨com, hcom, rfl⟩ := service_eq hr he
      exact ⟨hcom, ⟨h.held.outpktRdy, h.held.le⟩, h.promised⟩

theorem Promises.rxReceive (h : s.Promises) (hle : size.toNat ≤ s.promised)
    (he : s.blockStep serial (.rxReceive size) = some t) : t.Promises := by
  obtain ⟨hcom, hheld, hunread⟩ := h.held.usbComRxReceive (Nat.le_trans hle h.promised)
  have ht : t = { s with
      rx := (s.rx.usbComRxReceive size).2
      received := s.received ++ (s.rx.usbComRxReceive size).1
      promised := s.promised - size.toNat } := (Option.some.inj he).symm
  rw [ht]
  refine ⟨(congrArg (fun com => com.device.usbDeviceState) hcom).trans h.configured, hheld, ?_⟩
  dsimp only
  rw [hunread, List.length_drop]
  exact Nat.sub_le_sub_right h.promised _

theorem Promises.blockStep {a : BlockAction} (h : s.Promises) (hr : s.BlockRule serial a)
    (he : s.blockStep serial a = some t) : t.Promises := by
  cases a with
  | rx a => exact h.step hr he
  | rxReceive size => exact h.rxReceive hr he
  | otherCall usbindex =>
      obtain rfl := Option.some.inj he
      exact ⟨h.configured, ⟨h.held.outpktRdy, h.held.le⟩, h.promised⟩

/-- After any calls, a block of bytes that are available is received as single bytes would be, if
and only if the data endpoint is selected, or some of the packet remains and the endpoint that is
selected has no OUTPKT_RDY that could be cleared. -/
theorem usbComRxReceive_agrees_iff (hc : Ready c)
    (hr : Run (blockStep serial) (BlockRule serial) (start c) s) (hpos : 1 ≤ size.toNat)
    (hle : size.toNat ≤ s.promised) : s.rx.Agrees size ↔ s.rx.Unaffected size := by
  have h : s.Promises := hr.invariant (promises_start hc) fun _ _ _ h ha he => h.blockStep ha he
  have hn := Nat.le_trans hle h.promised
  exact ⟨fun ha => ha.unaffected h.held hpos hn, fun hu => hu.agrees h.held hpos hn⟩

/-- Two of three bytes are received while the notification endpoint is selected. -/
theorem usbComRxReceive_agrees_three : ∃ s,
    Run (blockStep fun _ => 0) (BlockRule fun _ => 0) (start ready) s ∧
      s.rx.com.device.usbindex = 1 ∧ s.rx.Agrees 2 := by
  have hrun : (exec (blockStep fun _ => 0) (BlockRule fun _ => 0) (start ready)
      [.rx (.packet [1, 2, 3]), .rx .rxAvailable, .rx (.service (.packet 0x00 []) 0 [])]).map
      (fun s => (s.rx.com.device.usbindex, s.promised, decide (s.rx.Unaffected 2))) =
      some (1, 3, true) := by
    decide +kernel
  obtain ⟨s, hr, hs⟩ := exists_run_of_exec hrun
  obtain ⟨hindex, hpromised, hunaffected⟩ : s.rx.com.device.usbindex = 1 ∧ s.promised = 3 ∧
      decide (s.rx.Unaffected 2) = true := by
    simpa only [Prod.mk.injEq] using hs
  have hle : (2 : UInt8).toNat ≤ s.promised := by
    rw [hpromised]
    decide
  exact ⟨s, hr, hindex, (usbComRxReceive_agrees_iff ⟨rfl, rfl⟩ hr (by decide) hle).mpr
    (of_decide_eq_true hunaffected)⟩

/-- All of three bytes: the packet is not released, and nothing more is received. -/
theorem packet_not_released : ∃ s,
    Run (blockStep fun _ => 0) (BlockRule fun _ => 0) (start ready) s ∧ s.promised = 3 ∧
      ((s.rx.usbComRxReceive 3).2.out 4) = ⟨true, []⟩ ∧
      ((ComRx.receiveBytes 3 s.rx).2.out 4) = ⟨false, []⟩ ∧ ¬ s.rx.Agrees 3 := by
  have hrun : (exec (blockStep fun _ => 0) (BlockRule fun _ => 0) (start ready)
      [.rx (.packet [1, 2, 3]), .rx .rxAvailable, .rx (.service (.packet 0x00 []) 0 [])]).map
      (fun s => (s.promised, (s.rx.usbComRxReceive 3).2.out 4,
        (ComRx.receiveBytes 3 s.rx).2.out 4)) = some (3, ⟨true, []⟩, ⟨false, []⟩) := by
    decide +kernel
  obtain ⟨s, hr, hs⟩ := exists_run_of_exec hrun
  obtain ⟨hpromised, hblock, hbytes⟩ : s.promised = 3 ∧
      (s.rx.usbComRxReceive 3).2.out 4 = ⟨true, []⟩ ∧
      (ComRx.receiveBytes 3 s.rx).2.out 4 = ⟨false, []⟩ := by
    simpa only [Prod.mk.injEq] using hs
  refine ⟨s, hr, hpromised, hblock, hbytes, fun hagrees => ?_⟩
  have hout := congrArg (fun d : ComRx => d.out 4) hagrees.state
  change (s.rx.usbComRxReceive 3).2.out 4 = (ComRx.receiveBytes 3 s.rx).2.out 4 at hout
  rw [hblock, hbytes] at hout
  cases hout

end Receiver
end WixelSdk.UsbCom
