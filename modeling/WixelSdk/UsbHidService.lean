import WixelSdk.Transition
import WixelSdk.UsbEndpoint
import WixelSdk.UsbHidPoll
import WixelSdk.Versions

/-!
# The reports of the HID library

`usbHidService` sends the input reports of the keyboard, the mouse and the joystick when the main
loop has marked them as updated, and the keyboard's also when its idle duration has expired. The
host may read a packet between any two accesses to the endpoints: `hostReads` lists what it reads at
each of these places, and `host` marks them.
-/

namespace WixelSdk.UsbHid
open Usb Transition Versions

inductive Interface
  | keyboard
  | mouse
  | joystick
  deriving DecidableEq, Repr

namespace Interface

/-- HID_KEYBOARD_ENDPOINT, HID_MOUSE_ENDPOINT and HID_JOYSTICK_ENDPOINT -/
def endpoint : Interface → UInt8
  | .keyboard => 1
  | .mouse => 2
  | .joystick => 3

def ofEndpoint? (endpointNumber : UInt8) : Option Interface :=
  if endpointNumber = 1 then some .keyboard
  else if endpointNumber = 2 then some .mouse
  else if endpointNumber = 3 then some .joystick
  else none

def input : Interface → HidObject
  | .keyboard => .usbHidKeyboardInput
  | .mouse => .usbHidMouseInput
  | .joystick => .usbHidJoystickInput

/-- A report is zero at first. -/
def initial (i : Interface) : List UInt8 := List.replicate i.input.size 0

theorem ofEndpoint_endpoint (i : Interface) : ofEndpoint? i.endpoint = some i := by
  cases i <;> rfl

theorem input_mem (i : Interface) : Object.driver i.input ∈ inputs := by
  cases i
  · exact Or.inl rfl
  · exact Or.inr (Or.inl rfl)
  · exact Or.inr (Or.inr rfl)

end Interface

/-- `updated` holds usbHidKeyboardInputUpdated, usbHidMouseInputUpdated and
usbHidJoystickInputUpdated. -/
structure Port where
  device : Hid
  ep : Interface → EndpointIn
  updated : Interface → Bool
  hidKeyboardLastReportTime : UInt16
  hostReads : List (List Interface)

namespace Port

variable (p : Port) (i : Interface)

/-- The bytes of usbHidKeyboardInput, usbHidMouseInput or usbHidJoystickInput. -/
def input : List UInt8 := (List.range i.input.size).map (p.device.xdata (.driver i.input))

/-! ### The endpoint registers -/

def hostRead (p : Port) (i : Interface) : Port :=
  { p with ep := Function.update p.ep i (p.ep i).read }

def host : Port := { (p.hostReads.headD []).foldl hostRead p with hostReads := p.hostReads.tail }

def select (endpointNumber : UInt8) : Port :=
  { p with device := { p.device with usbindex := endpointNumber } }

def inpktRdy : Bool :=
  match Interface.ofEndpoint? p.device.usbindex with
  | some i => (p.ep i).inpktRdy
  | none => false

def setInpktRdy : Port :=
  match Interface.ofEndpoint? p.device.usbindex with
  | some i => { p with ep := Function.update p.ep i (p.ep i).commit }
  | none => p

def writeFifo (p : Port) (byte : UInt8) : Port :=
  { p.host with ep := Function.update p.host.ep i ((p.host.ep i).write byte) }

def usbWriteFifo (buffer : List UInt8) : Port := buffer.foldl (writeFifo i) p

/-! ### usbHidService -/

/-- A report is written to the FIFO and sent, and its flag is reset. -/
def sendInput : Port :=
  let q := (p.usbWriteFifo i (p.input i)).host.setInpktRdy
  { q with updated := Function.update q.updated i false }

def idleExpired (now : UInt32) : Prop :=
  p.device.vars.hidKeyboardIdleDuration ≠ 0 ∧
    (now - p.hidKeyboardLastReportTime.toUInt32).toUInt16 > p.device.vars.hidKeyboardIdleDuration

instance (now : UInt32) : Decidable (p.idleExpired now) := inferInstanceAs (Decidable (_ ∧ _))

/-- `now` and `now'` are what the calls of getMs() before and after the report return. -/
def serviceKeyboard (now now' : UInt32) : Port :=
  let q := (p.select Interface.keyboard.endpoint).host
  if (q.updated .keyboard = true ∨ q.idleExpired now) ∧ q.inpktRdy = false then
    { q.sendInput .keyboard with hidKeyboardLastReportTime := now'.toUInt16 }
  else q

/-- The mouse and the joystick are served in the same way. -/
def serviceInput : Port :=
  let q := (p.select i.endpoint).host
  if q.updated i = true ∧ q.inpktRdy = false then q.sendInput i else q

def serviceMouse : Port := p.serviceInput .mouse

def serviceJoystick : Port := p.serviceInput .joystick

def poll (serial : ℕ → UInt8) (r : Readings) : Port :=
  { p with device := (p.device.usbPoll (usbHid serial) r).1 }

def usbHidService (serial : ℕ → UInt8) (r : Readings) (now now' : UInt32) : Port :=
  let q := p.poll serial r
  if q.device.usbDeviceState ≠ .configured then q
  else ((q.serviceKeyboard now now').serviceMouse).serviceJoystick

def store (offset : ℕ) (byte : UInt8) : Port :=
  { p with
    device := { p.device with
      xdata := Function.update p.device.xdata (.driver i.input)
        (Function.update (p.device.xdata (.driver i.input)) offset byte) } }

def markUpdated : Port := { p with updated := Function.update p.updated i true }

/-- The call is about to be made, and `reads` will happen while it runs. -/
def schedule (reads : List (List Interface)) : Port := { p with hostReads := reads }

end Port

theorem input_store (p : Port) (i : Interface) (offset : ℕ) (byte : UInt8) :
    (p.store i offset byte).input i = (p.input i).set offset byte := by
  have hsize : ∀ (f : ℕ → UInt8) (n : ℕ),
      (List.range n).map (Function.update f offset byte) = ((List.range n).map f).set offset byte := by
    intro f n
    apply List.ext_getElem?
    intro k
    rw [List.getElem?_map, List.getElem?_set, List.getElem?_map, List.length_map, List.length_range]
    by_cases hk : k < n
    · rw [List.getElem?_range hk]
      by_cases ho : offset = k
      · rw [if_pos ho, if_pos (ho ▸ hk), ho]
        exact congrArg some (Function.update_self _ _ _)
      · rw [if_neg ho]
        exact congrArg some (Function.update_of_ne (Ne.symm ho) _ _)
    · have hnone : (List.range n)[k]? = none := by
        rw [List.getElem?_eq_none_iff, List.length_range]
        exact not_lt.mp hk
      rw [hnone]
      split_ifs with ho hlt
      · exact absurd (ho ▸ hlt) hk
      · rfl
      · rfl
  unfold Port.input
  change (List.range i.input.size).map (Function.update p.device.xdata (.driver i.input) _
    (.driver i.input)) = _
  rw [Function.update_self]
  exact hsize _ _

theorem input_store_of_ne (p : Port) {i j : Interface} (h : j ≠ i) (offset : ℕ) (byte : UInt8) :
    (p.store i offset byte).input j = p.input j := by
  have hne : Object.driver j.input ≠ .driver i.input := by
    intro heq
    apply h
    cases i <;> cases j <;> first | rfl | cases heq
  exact congrArg (List.map · _) (Function.update_of_ne hne _ _)

/-! ### What the parts of a call do -/

/-- The host may have read packets; nothing else has happened. -/
structure Idle (p q : Port) : Prop where
  device : q.device = { p.device with usbindex := q.device.usbindex }
  ep : ∀ i, (p.ep i).ReadFrom (q.ep i)
  updated : q.updated = p.updated
  time : q.hidKeyboardLastReportTime = p.hidKeyboardLastReportTime

variable {p q q' : Port} {i j : Interface}

namespace Idle

theorem refl (p : Port) : Idle p p := ⟨rfl, fun _ => .refl, rfl, rfl⟩

theorem trans (h : Idle p q) (h' : Idle q q') : Idle p q' where
  device := by rw [h'.device, h.device]
  ep := fun i => (h.ep i).trans (h'.ep i)
  updated := h'.updated.trans h.updated
  time := h'.time.trans h.time

theorem input (h : Idle p q) (i : Interface) : q.input i = p.input i := by
  unfold Port.input
  rw [h.device]

theorem idleExpired (h : Idle p q) (now : UInt32) : q.idleExpired now ↔ p.idleExpired now := by
  unfold Port.idleExpired
  rw [h.device, h.time]

theorem hostRead (p : Port) (i : Interface) : Idle p (p.hostRead i) where
  device := rfl
  ep := fun j => by
    change (p.ep j).ReadFrom (Function.update p.ep i (p.ep i).read j)
    by_cases hij : j = i
    · rw [hij, Function.update_self]
      exact .read
    · rw [Function.update_of_ne hij]
      exact .refl
  updated := rfl
  time := rfl

theorem hostReads (reads : List Interface) (p : Port) : Idle p (reads.foldl Port.hostRead p) := by
  induction reads generalizing p with
  | nil => exact .refl p
  | cons i reads ih => exact (hostRead p i).trans (ih (p.hostRead i))

theorem host (p : Port) : Idle p p.host := by
  have h := hostReads (p.hostReads.headD []) p
  exact ⟨h.device, h.ep, h.updated, h.time⟩

theorem select (p : Port) (endpointNumber : UInt8) : Idle p (p.select endpointNumber) :=
  ⟨rfl, fun _ => .refl, rfl, rfl⟩

end Idle

@[simp] theorem host_usbindex (p : Port) : p.host.device.usbindex = p.device.usbindex := by
  have hreads : ∀ (reads : List Interface) (p : Port),
      (reads.foldl Port.hostRead p).device.usbindex = p.device.usbindex := by
    intro reads
    induction reads with
    | nil => exact fun _ => rfl
    | cons i reads ih => exact fun p => ih (p.hostRead i)
  exact hreads _ p

/-- The bytes are loaded into the FIFO of interface `i`, while the host may have read packets. -/
structure Loads (i : Interface) (bytes : List UInt8) (p q : Port) : Prop where
  device : q.device = p.device
  committed : (q.ep i).committed = (p.ep i).committed
  waiting : (q.ep i).waiting.length ≤ (p.ep i).waiting.length
  loaded : (q.ep i).loaded = (p.ep i).loaded ++ bytes
  overruns : (q.ep i).overruns = (p.ep i).overruns
  others : ∀ j ≠ i, (p.ep j).ReadFrom (q.ep j)
  updated : q.updated = p.updated
  time : q.hidKeyboardLastReportTime = p.hidKeyboardLastReportTime

theorem host_device (p : Port) : p.host.device = p.device := by
  rw [(Idle.host p).device, host_usbindex]

theorem loads_writeFifo (hfree : (p.ep i).waiting.length < 2) (byte : UInt8) :
    Loads i [byte] p (p.writeFifo i byte) := by
  have hhost := Idle.host p
  have hread := hhost.ep i
  have hep : (p.writeFifo i byte).ep i =
      { p.host.ep i with loaded := (p.host.ep i).loaded ++ [byte] } := by
    change Function.update p.host.ep i ((p.host.ep i).write byte) i = _
    rw [Function.update_self, EndpointIn.write_of_free (hread.waiting.trans_lt hfree)]
  refine ⟨host_device p, ?_, ?_, ?_, ?_, fun j hj => ?_, hhost.updated, hhost.time⟩
  · rw [hep]
    exact hread.committed
  · rw [hep]
    exact hread.waiting
  · rw [hep, ← hread.loaded]
  · rw [hep]
    exact hread.overruns
  · change (p.ep j).ReadFrom (Function.update p.host.ep i _ j)
    rw [Function.update_of_ne hj]
    exact hhost.ep j

theorem loads_usbWriteFifo (hfree : (p.ep i).waiting.length < 2) (bytes : List UInt8) :
    Loads i bytes p (p.usbWriteFifo i bytes) := by
  induction bytes generalizing p with
  | nil =>
      exact ⟨rfl, rfl, le_rfl, (List.append_nil _).symm, rfl, fun _ _ => .refl, rfl, rfl⟩
  | cons byte bytes ih =>
      have hone := loads_writeFifo hfree byte
      have hrest := ih (hone.waiting.trans_lt hfree)
      refine ⟨hrest.device.trans hone.device, hrest.committed.trans hone.committed,
        hrest.waiting.trans hone.waiting, ?_, hrest.overruns.trans hone.overruns,
        fun j hj => (hone.others j hj).trans (hrest.others j hj),
        hrest.updated.trans hone.updated, hrest.time.trans hone.time⟩
      exact hrest.loaded.trans (by rw [hone.loaded, List.append_assoc, List.singleton_append])

/-- A report of interface `i` is sent, while the host may have read packets. -/
structure Sends (i : Interface) (p q : Port) : Prop where
  device : q.device = p.device
  committed : (q.ep i).committed = (p.ep i).committed ++ [p.input i]
  loaded : (q.ep i).loaded = []
  overruns : (q.ep i).overruns = (p.ep i).overruns
  others : ∀ j ≠ i, (p.ep j).ReadFrom (q.ep j)
  updated : q.updated = Function.update p.updated i false

theorem sends_sendInput (hindex : p.device.usbindex = i.endpoint)
    (hfree : (p.ep i).waiting.length < 2) (hloaded : (p.ep i).loaded = []) :
    Sends i p (p.sendInput i) := by
  have hload := loads_usbWriteFifo hfree (p.input i)
  generalize hq : p.usbWriteFifo i (p.input i) = q at hload
  have hhost := Idle.host q
  have hread := hhost.ep i
  have hselected : Interface.ofEndpoint? q.host.device.usbindex = some i := by
    rw [host_usbindex, hload.device, hindex, Interface.ofEndpoint_endpoint]
  have hset : q.host.setInpktRdy =
      { q.host with ep := Function.update q.host.ep i (q.host.ep i).commit } := by
    rw [Port.setInpktRdy, hselected]
  have hcommit := EndpointIn.commit_of_free (hread.waiting.trans_lt (hload.waiting.trans_lt hfree))
  have hep : (p.sendInput i).ep i = { q.host.ep i with
      waiting := (q.host.ep i).waiting ++ [(q.host.ep i).loaded], loaded := [] } := by
    rw [Port.sendInput, hq]
    dsimp only
    rw [hset, ← hcommit]
    exact Function.update_self _ _ _
  have hbytes : (q.host.ep i).loaded = p.input i := by
    rw [hread.loaded, hload.loaded, hloaded, List.nil_append]
  refine ⟨?_, ?_, ?_, ?_, fun j hj => ?_, ?_⟩
  · rw [Port.sendInput, hq]
    dsimp only
    rw [hset]
    exact (host_device q).trans hload.device
  · rw [hep]
    change (q.host.ep i).received ++ ((q.host.ep i).waiting ++ [(q.host.ep i).loaded]) = _
    rw [← List.append_assoc, hbytes, ← hload.committed, ← hread.committed]
    rfl
  · rw [hep]
  · rw [hep]
    exact hread.overruns.trans hload.overruns
  · have hothers := (hload.others j hj).trans (hhost.ep j)
    rw [Port.sendInput, hq]
    dsimp only
    rw [hset]
    change (p.ep j).ReadFrom (Function.update q.host.ep i _ j)
    rw [Function.update_of_ne hj]
    exact hothers
  · rw [Port.sendInput, hq]
    dsimp only
    rw [hset]
    change Function.update q.host.updated i false = _
    rw [hhost.updated, hload.updated]

/-! ### One interface is served -/

/-- Interface `i` is served: its report is sent or not. Without a flag only the keyboard's may be
sent, and with room in the FIFO a flag is never left. -/
structure Serves (i : Interface) (p q : Port) : Prop where
  outcome : Idle p q ∨ ∃ m, Idle p m ∧ (i ≠ .keyboard → p.updated i = true) ∧ Sends i m q
  clears : (p.ep i).waiting.length < 2 → q.updated i = false

theorem inpktRdy_eq (hindex : p.device.usbindex = i.endpoint) :
    p.inpktRdy = decide (2 ≤ (p.ep i).waiting.length) := by
  unfold Port.inpktRdy
  rw [hindex, Interface.ofEndpoint_endpoint]
  rfl

theorem idle_selected (p : Port) (i : Interface) : Idle p (p.select i.endpoint).host :=
  (Idle.select p i.endpoint).trans (.host _)

theorem selected_usbindex (p : Port) (i : Interface) :
    (p.select i.endpoint).host.device.usbindex = i.endpoint := host_usbindex _

/-- The selected interface sends its report if one is due and there is room. -/
theorem sends_of_free (hq : Idle p q) (hindex : q.device.usbindex = i.endpoint)
    (hloaded : (p.ep i).loaded = []) (hrdy : q.inpktRdy = false) : Sends i q (q.sendInput i) := by
  rw [inpktRdy_eq hindex] at hrdy
  exact sends_sendInput hindex (not_le.mp (of_decide_eq_false hrdy)) ((hq.ep i).loaded.trans hloaded)

theorem inpktRdy_of_free (hq : Idle p q) (hindex : q.device.usbindex = i.endpoint)
    (hfree : (p.ep i).waiting.length < 2) : q.inpktRdy = false := by
  rw [inpktRdy_eq hindex]
  exact decide_eq_false (not_le.mpr ((hq.ep i).waiting.trans_lt hfree))

theorem Sends.updated_self (h : Sends i p q) : q.updated i = false := by
  rw [h.updated]
  exact Function.update_self _ _ _

theorem serves_serviceInput (p : Port) (hloaded : (p.ep i).loaded = []) :
    Serves i p (p.serviceInput i) := by
  have hq := idle_selected p i
  have hindex := selected_usbindex p i
  unfold Port.serviceInput
  dsimp only
  generalize (p.select i.endpoint).host = q at hq hindex ⊢
  by_cases hdue : q.updated i = true ∧ q.inpktRdy = false
  · rw [if_pos hdue]
    have hsend := sends_of_free hq hindex hloaded hdue.2
    exact ⟨Or.inr ⟨q, hq, fun _ => congrFun hq.updated i ▸ hdue.1, hsend⟩,
      fun _ => hsend.updated_self⟩
  · rw [if_neg hdue]
    refine ⟨Or.inl hq, fun hfree => ?_⟩
    have hrdy := inpktRdy_of_free hq hindex hfree
    exact Bool.eq_false_iff.mpr fun hu => hdue ⟨hu, hrdy⟩

theorem serves_serviceKeyboard (p : Port) (now now' : UInt32)
    (hloaded : (p.ep .keyboard).loaded = []) :
    Serves .keyboard p (p.serviceKeyboard now now') := by
  have hq := idle_selected p .keyboard
  have hindex := selected_usbindex p .keyboard
  unfold Port.serviceKeyboard
  dsimp only
  generalize (p.select Interface.keyboard.endpoint).host = q at hq hindex ⊢
  by_cases hdue : (q.updated .keyboard = true ∨ q.idleExpired now) ∧ q.inpktRdy = false
  · rw [if_pos hdue]
    have hsend := sends_of_free hq hindex hloaded hdue.2
    exact ⟨Or.inr ⟨q, hq, fun h => absurd rfl h, ⟨hsend.device, hsend.committed, hsend.loaded,
      hsend.overruns, hsend.others, hsend.updated⟩⟩, fun _ => hsend.updated_self⟩
  · rw [if_neg hdue]
    refine ⟨Or.inl hq, fun hfree => ?_⟩
    have hrdy := inpktRdy_of_free hq hindex hfree
    exact Bool.eq_false_iff.mpr fun hu => hdue ⟨Or.inl hu, hrdy⟩

namespace Serves

/-- The other interfaces are left alone, the packets apart that the host reads. -/
theorem other (h : Serves i p q) (hj : j ≠ i) :
    (p.ep j).ReadFrom (q.ep j) ∧ q.updated j = p.updated j := by
  rcases h.outcome with hidle | ⟨m, hidle, -, hsend⟩
  · exact ⟨hidle.ep j, congrFun hidle.updated j⟩
  · refine ⟨(hidle.ep j).trans (hsend.others j hj), ?_⟩
    rw [hsend.updated, Function.update_of_ne hj, hidle.updated]

theorem device (h : Serves i p q) :
    q.device = { p.device with usbindex := q.device.usbindex } := by
  rcases h.outcome with hidle | ⟨m, hidle, -, hsend⟩
  · exact hidle.device
  · rw [hsend.device]
    exact hidle.device

end Serves

/-! ### What the host gets -/

/-- The packets of interface `i` are copies of its versions, and of those of the mouse and the
joystick there is at most one copy each. -/
structure Tracked (i : Interface) (versions : List (List UInt8)) (p : Port) : Prop where
  loaded : (p.ep i).loaded = []
  overruns : (p.ep i).overruns = 0
  mirrors : ∃ counts n,
    Mirrors (i.initial :: versions) (p.updated i) (p.ep i).committed counts n ∧
      (i ≠ .keyboard → Once (counts ++ [n]))

variable {versions : List (List UInt8)}

namespace Tracked

theorem readFrom (h : Tracked i versions p) (he : (p.ep i).ReadFrom (q.ep i))
    (hu : q.updated i = p.updated i) : Tracked i versions q where
  loaded := he.loaded.trans h.loaded
  overruns := he.overruns.trans h.overruns
  mirrors := by
    rw [hu, he.committed]
    exact h.mirrors

theorem sends (h : Tracked i versions p) (hs : Sends i p q)
    (hlast : (i.initial :: versions).getLast? = some (p.input i))
    (hu : i ≠ .keyboard → p.updated i = true) : Tracked i versions q where
  loaded := hs.loaded
  overruns := hs.overruns.trans h.overruns
  mirrors := by
    obtain ⟨counts, n, hm, hone⟩ := h.mirrors
    rw [hs.updated_self, hs.committed]
    refine ⟨counts, n + 1, hm.take hlast, fun hi => ?_⟩
    obtain ⟨rfl, hne⟩ := hm.fresh (hu hi)
    exact (hone hi).take hne

theorem serves (h : Tracked j versions p) (hs : Serves i p q)
    (hlast : (j.initial :: versions).getLast? = some (p.input j)) : Tracked j versions q := by
  by_cases hj : j = i
  · subst hj
    rcases hs.outcome with hidle | ⟨m, hidle, hu, hsend⟩
    · exact h.readFrom (hidle.ep j) (congrFun hidle.updated j)
    · have hm := h.readFrom (hidle.ep j) (congrFun hidle.updated j)
      refine hm.sends hsend ?_ fun hi => (congrFun hidle.updated j).trans (hu hi)
      rw [hidle.input, hlast]
  · exact h.readFrom (hs.other hj).1 (hs.other hj).2

theorem markUpdated (h : Tracked j versions p) (i : Interface) :
    Tracked j (if j = i then versions ++ [p.input i] else versions) (p.markUpdated i) := by
  by_cases hj : j = i
  · subst hj
    rw [if_pos rfl]
    obtain ⟨counts, n, hm, hone⟩ := h.mirrors
    refine ⟨h.loaded, h.overruns, counts ++ [n], 0, ?_, fun hi => (hone hi).publish⟩
    have hself : (p.markUpdated j).updated j = true := Function.update_self _ _ _
    rw [hself]
    exact hm.publish _
  · rw [if_neg hj]
    exact h.readFrom .refl (Function.update_of_ne hj _ _)

/-- The packets of the mouse or the joystick are versions, in order and each at most once. -/
theorem sublist (h : Tracked i versions p) (hi : i ≠ .keyboard) :
    ((p.ep i).received ++ (p.ep i).waiting).Sublist versions := by
  obtain ⟨counts, n, hm, hone⟩ := h.mirrors
  have htaken : (p.ep i).received ++ (p.ep i).waiting =
      copies (i.initial :: versions) (counts ++ [n]) := hm.taken
  rw [htaken]
  exact (hone hi).sublist

/-- The last packet is the last version unless that one is still marked as updated. -/
theorem getLast_of_updated (h : Tracked i versions p) (hu : p.updated i = false)
    (hne : versions ≠ []) :
    ((p.ep i).received ++ (p.ep i).waiting).getLast? = versions.getLast? := by
  obtain ⟨counts, n, hm, -⟩ := h.mirrors
  have hcounts : counts ≠ [] := fun hnil => by
    have hlength := Nat.succ_inj.mp hm.length
    rw [hnil] at hlength
    exact hne (List.length_eq_zero_iff.mp hlength)
  rw [hu] at hm
  have hlast : ((p.ep i).received ++ (p.ep i).waiting).getLast? =
      (i.initial :: versions).getLast? := hm.getLast_taken hcounts
  rw [hlast, List.getLast?_cons_of_ne_nil hne]

end Tracked

/-! ### Runs -/

/-- `versions` are the contents of the reports at the moments when they were marked as updated. -/
structure Station where
  port : Port
  versions : Interface → List (List UInt8)

inductive Action
  | store (i : Interface) (offset : ℕ) (byte : UInt8)
  | update (i : Interface)
  | hostRead (i : Interface)
  | service (readings : Readings) (now now' : UInt32) (reads : List (List Interface))

namespace Station

variable (s : Station)

/-- The version that the computer should see. -/
def current (i : Interface) : List UInt8 := (s.versions i).getLast?.getD i.initial

def step (serial : ℕ → UInt8) (s : Station) : Action → Option Station
  | .store i offset byte => some { s with port := s.port.store i offset byte }
  | .update i =>
      some {
        port := s.port.markUpdated i
        versions := Function.update s.versions i (s.versions i ++ [s.port.input i]) }
  | .hostRead i => some { s with port := s.port.hostRead i }
  | .service readings now now' reads =>
      some { s with port := (s.port.schedule reads).usbHidService serial readings now now' }

/-- There is no bus reset and no loss of power, and the main loop has marked all that it has written. -/
def Allowed (s : Station) : Action → Prop
  | .service readings _ _ _ => readings.usbPowerPresent = true ∧ readings.rstif = false ∧
      ∀ i, s.port.input i = s.current i
  | _ => True

instance : DecidablePred fun i : Interface => s.port.input i = s.current i := fun _ =>
  inferInstance

instance (a : Action) : Decidable (s.Allowed a) := by
  cases a with
  | service =>
      exact decidable_of_iff (_ ∧ _ ∧ s.port.input .keyboard = s.current .keyboard ∧
        s.port.input .mouse = s.current .mouse ∧ s.port.input .joystick = s.current .joystick)
        (and_congr_right fun _ => and_congr_right fun _ =>
          ⟨fun h i => by cases i <;> tauto, fun h => ⟨h _, h _, h _⟩⟩)
  | store => exact isTrue trivial
  | update => exact isTrue trivial
  | hostRead => exact isTrue trivial

def start (d : Hid) : Station where
  port := ⟨d, fun _ => .empty, fun _ => false, 0, []⟩
  versions := fun _ => []

/-- The reports are zero and no data is awaited for them. -/
structure Fresh (d : Hid) : Prop where
  zero : ∀ i : Interface, d.xdata (.driver i.input) = fun _ => 0
  spares : d.Spares inputs d

structure Invariant : Prop where
  tracked : ∀ i, Tracked i (s.versions i) s.port
  spares : s.port.device.Spares inputs s.port.device

variable {s} {t : Station} {serial : ℕ → UInt8} {d : Hid}

theorem getLast_versions (s : Station) (i : Interface) :
    (i.initial :: s.versions i).getLast? = some (s.current i) := List.getLast?_cons

theorem invariant_start (hd : Fresh d) : (start d).Invariant where
  tracked := fun _ => ⟨rfl, rfl, [], 0, .start _, fun _ => ⟨fun c hc => by
    rw [List.mem_singleton.mp hc]
    exact Nat.zero_le 1, rfl⟩⟩
  spares := hd.spares

/-- What holds while the interfaces are served one after another. -/
structure Serving (s : Station) (p : Port) : Prop where
  tracked : ∀ i, Tracked i (s.versions i) p
  input : ∀ i, p.input i = s.current i
  spares : p.device.Spares inputs p.device

theorem Serving.serves {p q : Port} (h : s.Serving p) {i : Interface} (hs : Serves i p q) :
    s.Serving q where
  tracked := fun j => (h.tracked j).serves hs (by rw [h.input]; exact s.getLast_versions j)
  input := fun j => by
    rw [← h.input j]
    unfold Port.input
    rw [hs.device]
  spares := by
    rw [hs.device]
    exact ⟨fun _ _ => rfl, h.spares.target⟩

theorem Serving.poll {p : Port} (h : s.Serving p) (serial : ℕ → UInt8) (r : Readings) :
    s.Serving (p.poll serial r) := by
  have hd := (usbHid_spares serial).usbPoll (r := r) h.spares
  refine ⟨fun i => (h.tracked i).readFrom .refl rfl, fun i => ?_, ⟨fun _ _ => rfl, hd.target⟩⟩
  rw [← h.input i]
  unfold Port.input
  exact congrArg (List.map · _) (hd.xdata _ i.input_mem)

/-- In a configured device all three interfaces are served. -/
theorem usbHidService_serves {p : Port} (h : s.Serving p) (serial : ℕ → UInt8) (r : Readings)
    (now now' : UInt32) :
    s.Serving (p.usbHidService serial r now now') ∧
      ((p.usbHidService serial r now now').device.usbDeviceState = .configured →
        ∀ i, (p.ep i).waiting.length < 2 →
          (p.usbHidService serial r now now').updated i = false) := by
  have h₀ := h.poll serial r
  have hep : (p.poll serial r).ep = p.ep := rfl
  unfold Port.usbHidService
  dsimp only
  generalize p.poll serial r = q at h₀ hep ⊢
  by_cases hconf : q.device.usbDeviceState ≠ .configured
  · rw [if_pos hconf]
    exact ⟨h₀, fun hc => absurd hc hconf⟩
  · rw [if_neg hconf, ← hep]
    have hk := serves_serviceKeyboard q now now' (h₀.tracked .keyboard).loaded
    have h₁ := h₀.serves hk
    generalize q.serviceKeyboard now now' = q₁ at hk h₁ ⊢
    have hm : Serves .mouse q₁ q₁.serviceMouse :=
      serves_serviceInput q₁ (h₁.tracked .mouse).loaded
    have h₂ := h₁.serves hm
    generalize q₁.serviceMouse = q₂ at hm h₂ ⊢
    have hj : Serves .joystick q₂ q₂.serviceJoystick :=
      serves_serviceInput q₂ (h₂.tracked .joystick).loaded
    refine ⟨h₂.serves hj, fun _ i hfree => ?_⟩
    cases i with
    | keyboard =>
        rw [(hj.other (by decide)).2, (hm.other (by decide)).2]
        exact hk.clears hfree
    | mouse =>
        rw [(hj.other (by decide)).2]
        exact hm.clears ((hk.other (by decide)).1.waiting.trans_lt hfree)
    | joystick =>
        have hwaiting := (hk.other (j := .joystick) (by decide)).1.waiting
        exact hj.clears ((hm.other (by decide)).1.waiting.trans_lt (hwaiting.trans_lt hfree))

theorem Invariant.serving (h : s.Invariant) (hin : ∀ i, s.port.input i = s.current i)
    (reads : List (List Interface)) : s.Serving (s.port.schedule reads) :=
  ⟨fun i => (h.tracked i).readFrom .refl rfl, hin, h.spares⟩

theorem Invariant.step (h : s.Invariant) (serial : ℕ → UInt8) {a : Action} (ha : s.Allowed a)
    (ht : s.step serial a = some t) : t.Invariant := by
  cases a with
  | store i offset byte =>
      obtain rfl := Option.some.inj ht
      exact ⟨fun j => (h.tracked j).readFrom .refl rfl, ⟨fun _ _ => rfl, h.spares.target⟩⟩
  | update i =>
      obtain rfl := Option.some.inj ht
      refine ⟨fun j => ?_, h.spares⟩
      have hj := (h.tracked j).markUpdated i
      change Tracked j (Function.update s.versions i (s.versions i ++ [s.port.input i]) j) _
      by_cases hji : j = i
      · subst hji
        rw [if_pos rfl] at hj
        rw [Function.update_self]
        exact hj
      · rw [if_neg hji] at hj
        rw [Function.update_of_ne hji]
        exact hj
  | hostRead i =>
      obtain rfl := Option.some.inj ht
      have hread := Idle.hostRead s.port i
      refine ⟨fun j => (h.tracked j).readFrom (hread.ep j) rfl, h.spares⟩
  | service readings now now' reads =>
      obtain rfl := Option.some.inj ht
      obtain ⟨hserving, -⟩ := usbHidService_serves (h.serving ha.2.2 reads) serial readings now
        now'
      exact ⟨hserving.tracked, hserving.spares⟩

theorem Invariant.run (hr : Run (Station.step serial) Allowed s t) (h : s.Invariant) :
    t.Invariant :=
  hr.invariant h fun _ _ _ hi ha ht => hi.step serial ha ht

/-- Without a bus reset and a loss of power, the FIFOs of the HID library never overrun. The packets of
the mouse and of the joystick are versions of their reports, in order and each at most once, those of
the keyboard are copies of its versions in order. When a report is not marked as updated any more the
last packet is its current version, and the mark goes with every call that finds room in the FIFO. -/
theorem usbHidService_reports (serial : ℕ → UInt8) {d : Hid} (hd : Fresh d) {s : Station}
    (hr : Run (Station.step serial) Allowed (start d) s) (i : Interface) :
    (s.port.ep i).overruns = 0 ∧
    (i ≠ .keyboard → ((s.port.ep i).received ++ (s.port.ep i).waiting).Sublist (s.versions i)) ∧
    (∃ counts : List ℕ, counts.length = (s.versions i).length + 1 ∧
      (s.port.ep i).received ++ (s.port.ep i).waiting =
        copies (i.initial :: s.versions i) counts) ∧
    (s.port.updated i = false → s.versions i ≠ [] →
      ((s.port.ep i).received ++ (s.port.ep i).waiting).getLast? = (s.versions i).getLast?) ∧
    ∀ readings now now' reads t, s.Allowed (.service readings now now' reads) →
      s.step serial (.service readings now now' reads) = some t →
      t.port.device.usbDeviceState = .configured → (s.port.ep i).waiting.length < 2 →
      t.port.updated i = false := by
  have h := (invariant_start hd).run hr
  refine ⟨(h.tracked i).overruns, (h.tracked i).sublist, ?_, (h.tracked i).getLast_of_updated, ?_⟩
  · obtain ⟨counts, n, hm, -⟩ := (h.tracked i).mirrors
    refine ⟨counts ++ [n], ?_, hm.taken⟩
    rw [List.length_append, ← Nat.succ_inj.mp hm.length, List.length_singleton]
  · intro readings now now' reads t ha ht hconf hfree
    obtain rfl := Option.some.inj ht
    exact (usbHidService_serves (h.serving ha.2.2 reads) serial readings now now').2 hconf i hfree

/-- A device whose host has sent SET_CONFIGURATION. -/
def configured : Hid where
  usbSetupPacket := ⟨0, 9, 1, 0, 0⟩
  usbDeviceState := .configured
  controlTransferState := .none
  controlTransferBytesLeft := 0
  controlTransferPointer := .start .response
  usbSuspendMode := false
  usbindex := 0
  usbaddr := 1
  xdata := fun _ _ => 0
  vars := ⟨500, true, true⟩

theorem fresh_configured : Fresh configured := ⟨fun _ => rfl, .of_none rfl⟩

/-- The status of the USB module when nothing has happened. -/
def quiet : Readings := ⟨true, false, 0, 0, 0, 0, fun _ => 0, 0⟩

/-- The mouse is moved twice before its report is sent. -/
theorem usbHidService_reports_mouse :
    ∃ s : Station, (s.versions .mouse = [[0, 5, 0, 0], [0, 7, 0, 0]] ∧
      (s.port.ep .mouse).received = [[0, 7, 0, 0]]) ∧
      (s.port.ep .mouse).overruns = 0 ∧
      ((s.port.ep .mouse).received ++ (s.port.ep .mouse).waiting).Sublist (s.versions .mouse) := by
  have hrun : (exec (Station.step fun _ => 0) Allowed (start configured)
      [.store .mouse 1 5, .update .mouse, .store .mouse 1 7, .update .mouse,
        .service quiet 0 0 [], .hostRead .mouse]).map
      (fun s => (s.versions .mouse, (s.port.ep .mouse).received)) =
      some ([[0, 5, 0, 0], [0, 7, 0, 0]], [[0, 7, 0, 0]]) := by
    decide +kernel
  obtain ⟨s, hr, hs⟩ := exists_run_of_exec hrun
  have hreports := usbHidService_reports _ fresh_configured hr .mouse
  exact ⟨s, Prod.mk.injEq .. ▸ hs, hreports.1, hreports.2.1 (by decide)⟩

end Station
end WixelSdk.UsbHid
