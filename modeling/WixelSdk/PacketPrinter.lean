import WixelSdk.RadioQueueReader
import WixelSdk.TextLines
import WixelSdk.UsbComStream

/-!
# Programs that print radio packets

`wireless_adc_rx.c` and `radio_sniffer.c` wait for a packet in the radio queue and for room in the
USB port, put the text for the packet with one `usbComTxSendByte` for each character, and give the
packet back. A `Printer` is what they differ in. The radio interrupt and the host take turns with
the main loop between any two characters.
-/

namespace WixelSdk.PacketPrinter
open RadioMac RadioQueue Transition
open RadioLink (Buf dmaStore)
open UsbCom (HostRead)
open TextLines

/-- `read` gives what a line shows besides the packet, from the variables of the program and from
outside. `fields` are the texts that are put one after another, each read from the packet at its
turn. `Received` says which bytes the radio lets through, and `Good` what that means for the
buffers. -/
structure Printer (σ ι ν : Type*) where
  init : σ
  allowCrcErrors : Bool
  need : UInt8
  read : σ → ι → ν × σ
  fields : Buf → ν → List (List UInt8)
  Received : List UInt8 → Prop
  Good : Buf → Prop
  good_zero : Good fun _ => 0
  good_store : ∀ lenl bytes buf, Received bytes → Good buf → Good (dmaStore lenl bytes buf)
  fits : ∀ p x, Good p → (fields p x).flatten.length ≤ need.toNat
  ends : ∀ p x, ∃ l, 10 ∉ l ∧ (fields p x).flatten = l ++ [10]

/-- While a line is printed: what it shows besides the packet, how many of its texts have been
begun, and the characters of the last of these that are still to be put. -/
inductive Stage (ν : Type*)
  | idle
  | printing (x : ν) (begun : ℕ) (characters : List UInt8)

def Stage.isIdle {ν : Type*} : Stage ν → Bool
  | .idle => true
  | .printing _ _ _ => false

structure Receiver (σ ν : Type*) where
  radio : RadioQueue.Station
  usb : UsbCom.Station
  vars : σ
  stage : Stage ν
  /-- What the lines show besides the packets. -/
  shown : List ν

inductive Action (ι : Type*)
  | check (i : ι) (reads : List (List HostRead))
  | next
  | putchar (reads : List (List HostRead))
  | radio (a : RadioQueue.Action)
  | hostRead (read : HostRead)
  | service (readings : Usb.Readings) (now : UInt32) (reads : List (List HostRead))

variable {σ ι ν : Type*} (P : Printer σ ι ν)

def Printer.line (p : Buf) (x : ν) : List UInt8 := (P.fields p x).flatten

def Printer.body (p : Buf) (x : ν) : List UInt8 := (P.line p x).dropLast

def Printer.text (packets : List Buf) (shown : List ν) : List UInt8 :=
  (List.zipWith P.line packets shown).flatten

namespace Receiver

variable (s : Receiver σ ν)

def packet : Option Buf := s.radio.queue.packet

/-- The condition and, if it holds, the arguments of the first printf. -/
def check (i : ι) (reads : List (List HostRead)) : Receiver σ ν :=
  match s.packet with
  | none => s
  | some _ =>
    let c := (s.usb.com.schedule reads).usbComTxAvailable
    let t := { s with usb := ⟨c.2, s.usb.sent, c.1.toNat, false⟩ }
    if P.need ≤ c.1 then
      let (x, vars) := P.read s.vars i
      { t with vars := vars, stage := .printing x 0 [], shown := s.shown ++ [x] }
    else t

/-- The text after the one that has been put, or radioQueueRxDoneWithPacket() after the last. -/
def next : Option (Receiver σ ν) :=
  match s.stage, s.packet with
  | .printing x begun [], some p =>
    match (P.fields p x)[begun]? with
    | some characters => some { s with stage := .printing x (begun + 1) characters }
    | none => (s.radio.step (.call .rxDone)).map fun radio =>
        { s with radio := radio, stage := .idle }
  | _, _ => none

def putchar (serial : ℕ → UInt8) (reads : List (List HostRead)) : Option (Receiver σ ν) :=
  match s.stage with
  | .printing x begun (c :: characters) => (s.usb.step serial (.txSendByte c reads)).map fun usb =>
      { s with usb := usb, stage := .printing x begun characters }
  | _ => none

def step (serial : ℕ → UInt8) (s : Receiver σ ν) : Action ι → Option (Receiver σ ν)
  | .check i reads => if s.stage.isIdle then some (s.check P i reads) else none
  | .next => s.next P
  | .putchar reads => s.putchar serial reads
  | .radio a => (s.radio.step a).map fun radio => { s with radio := radio }
  | .hostRead read => (s.usb.step serial (.hostRead read)).map fun usb => { s with usb := usb }
  | .service readings now reads =>
    if s.stage.isIdle then
      (s.usb.step serial (.service readings now reads)).map fun usb => { s with usb := usb }
    else none

/-- The functions of the radio queue are called by the main loop only, and the USB device stays
configured. -/
def Allowed (serial : ℕ → UInt8) (s : Receiver σ ν) : Action ι → Prop
  | .radio (.call _) => False
  | .radio (.dma bytes) => P.Received bytes
  | .service readings now reads => s.usb.StaysConfigured serial (.service readings now reads)
  | _ => True

instance [DecidablePred P.Received] (serial : ℕ → UInt8) (s : Receiver σ ν) (a : Action ι) :
    Decidable (s.Allowed P serial a) := by
  rcases a with _ | _ | _ | (_ | _ | _ | _) | _ | _ <;> dsimp only [Allowed] <;> infer_instance

def start (channel : UInt8) (c : UsbCom.Com) : Receiver σ ν where
  radio := { Station.init channel with
    queue := (Station.init channel).queue.call (.allowCrcErrors P.allowCrcErrors) }
  usb := .start c
  vars := P.init
  stage := .idle
  shown := []

/-- `front` is what has been printed of the line for the packet, and there is room for the rest. -/
structure Printing (x : ν) (begun : ℕ) (characters : List UInt8) (p : Buf) (front : List UInt8) :
    Prop where
  packet : s.packet = some p
  shown : s.shown.length = s.radio.history.presented.length + 1
  last : s.shown.getLast? = some x
  sent : s.usb.sent = P.text s.radio.history.presented s.shown ++ front
  line : front ++ characters ++ ((P.fields p x).drop begun).flatten = P.line p x
  room : (characters ++ ((P.fields p x).drop begun).flatten).length ≤ s.usb.promised
  serviced : s.usb.serviced = false

def StageInvariant : Prop :=
  match s.stage with
  | .idle => s.shown.length = s.radio.history.presented.length ∧
      s.usb.sent = P.text s.radio.history.presented s.shown
  | .printing x begun characters => ∃ p front, s.Printing P x begun characters p front

structure Invariant : Prop where
  ordered : Ordered s.radio.queue s.radio.history
  good : ∀ i, P.Good (s.radio.queue.radioQueueRxPacket i)
  presented : ∀ p ∈ s.radio.history.presented, P.Good p
  usb : s.usb.Invariant
  stage : s.StageInvariant P

variable {P} {s : Receiver σ ν} {serial : ℕ → UInt8} {t : Receiver σ ν}

/-! ### The radio -/

theorem good_step {s t : RadioQueue.Station} {a : RadioQueue.Action} (hcall : ∀ c, a ≠ .call c)
    (hdma : ∀ bytes, a = .dma bytes → P.Received bytes) (ht : s.step a = some t)
    (h : ∀ i, P.Good (s.queue.radioQueueRxPacket i)) (i : ℕ) :
    P.Good (t.queue.radioQueueRxPacket i) := by
  cases a with
  | call c => exact absurd rfl (hcall c)
  | dma bytes =>
      obtain rfl := Option.some.inj ht
      change P.Good ((s.queue.dmaReceive bytes).radioQueueRxPacket i)
      unfold Queue.dmaReceive
      split
      · next packet lenl vlen hst hd =>
          cases packet with
          | radioQueueTxPacket j => exact h i
          | radioQueueRxPacket j =>
              change P.Good (Function.update s.queue.radioQueueRxPacket j _ i)
              by_cases hij : i = j
              · rw [hij, Function.update_self]
                exact P.good_store _ _ _ (hdma bytes rfl) (h j)
              · rw [Function.update_of_ne hij]
                exact h i
      · exact h i
  | rfErrors f =>
      obtain rfl := Option.some.inj ht
      exact h i
  | event e r =>
      obtain ⟨-, he⟩ := Option.ite_none_right_eq_some.mp ht
      obtain rfl := Option.some.inj he
      obtain ⟨m, hm⟩ := s.queue.radioMacEvent_eq r e
      change P.Good ((s.queue.radioMacEvent r e).radioQueueRxPacket i)
      rw [hm]
      exact h i

/-! ### One step -/

theorem Invariant.radio (h : s.Invariant P) {r : RadioQueue.Station}
    (ho : Ordered r.queue r.history) (hg : ∀ i, P.Good (r.queue.radioQueueRxPacket i))
    (hk : Kept s.radio r) : ({ s with radio := r } : Receiver σ ν).Invariant P := by
  refine ⟨ho, hg, hk.presented.symm ▸ h.presented, h.usb, ?_⟩
  have hstage := h.stage
  unfold StageInvariant at hstage ⊢
  dsimp only at hstage ⊢
  cases hst : s.stage with
  | idle =>
      rw [hst] at hstage
      dsimp only at hstage ⊢
      rw [hk.presented]
      exact hstage
  | printing x begun characters =>
      rw [hst] at hstage
      obtain ⟨p, front, hp⟩ := hstage
      refine ⟨p, front, hk.packet h.ordered ho hp.packet, ?_, hp.last, ?_, hp.line, hp.room, hp.serviced⟩
      · rw [hk.presented]
        exact hp.shown
      · rw [hk.presented]
        exact hp.sent

/-- The port changes between two characters of the main loop. -/
theorem Invariant.setUsb (h : s.Invariant P) {u : UsbCom.Station} (hu : u.Invariant)
    (hsent : u.sent = s.usb.sent) (hroom : s.stage.isIdle = true ∨
      u.promised = s.usb.promised ∧ u.serviced = s.usb.serviced) :
    ({ s with usb := u } : Receiver σ ν).Invariant P := by
  refine ⟨h.ordered, h.good, h.presented, hu, ?_⟩
  have hstage := h.stage
  unfold StageInvariant at hstage ⊢
  dsimp only at hstage ⊢
  cases hst : s.stage with
  | idle =>
      rw [hst] at hstage
      exact ⟨hstage.1, hsent.trans hstage.2⟩
  | printing x begun characters =>
      rw [hst] at hstage hroom
      obtain ⟨p, front, hp⟩ := hstage
      obtain ⟨hpromised, hserviced⟩ := hroom.resolve_left Bool.false_ne_true
      exact ⟨p, front, hp.packet, hp.shown, hp.last, hsent.trans hp.sent, hp.line,
        hpromised ▸ hp.room, hserviced.trans hp.serviced⟩

/-- What is shown with a packet does not count before the packet does. -/
theorem text_concat {packets : List Buf} {shown : List ν} (h : shown.length = packets.length)
    (x : ν) : P.text packets (shown ++ [x]) = P.text packets shown := by
  have happend : List.zipWith P.line (packets ++ []) (shown ++ [x]) =
      List.zipWith P.line packets shown ++ List.zipWith P.line [] [x] :=
    List.zipWith_append h.symm
  rw [List.append_nil] at happend
  unfold Printer.text
  rw [happend]
  exact congrArg List.flatten (List.append_nil _)

theorem Invariant.check (h : s.Invariant P) (hidle : s.stage.isIdle = true) (i : ι)
    (reads : List (List HostRead)) : (s.check P i reads).Invariant P := by
  unfold Receiver.check
  cases hp : s.packet with
  | none => exact h
  | some p =>
      have hstep : s.usb.step (fun _ => 0) (.txAvailable reads) =
          some ⟨(s.usb.com.schedule reads).usbComTxAvailable.2, s.usb.sent,
            (s.usb.com.schedule reads).usbComTxAvailable.1.toNat, false⟩ := rfl
      have hgranted : s.usb.Granted (fun _ => 0) (.txAvailable reads) :=
        ⟨trivial, Nat.zero_le _, Or.inl rfl⟩
      have hu := h.usb.step hgranted hstep
      dsimp only
      split
      · next hneed =>
          have hstage := h.stage
          unfold StageInvariant at hstage
          cases hst : s.stage with
          | printing x begun characters =>
              rw [hst] at hidle
              cases hidle
          | idle =>
              rw [hst] at hstage
              obtain ⟨hshown, hsent⟩ := hstage
              have hgood : P.Good p := by
                obtain ⟨slot, -, rfl⟩ := Option.map_eq_some_iff.mp hp
                exact h.good slot
              have hroom := P.fits p (P.read s.vars i).1 hgood
              refine ⟨h.ordered, h.good, h.presented, hu, p, [], hp, ?_, List.getLast?_concat, ?_,
                rfl, ?_, rfl⟩
              · rw [List.length_append, hshown]
                rfl
              · rw [text_concat hshown, List.append_nil]
                exact hsent
              · exact Nat.le_trans hroom (UInt8.le_iff_toNat_le.mp hneed)
      · exact h.setUsb hu rfl (.inl hidle)

theorem Invariant.printing (h : s.Invariant P) {x : ν} {begun : ℕ} {characters : List UInt8}
    (hst : s.stage = .printing x begun characters) :
    ∃ p front, s.Printing P x begun characters p front := by
  have hstage := h.stage
  unfold StageInvariant at hstage
  rw [hst] at hstage
  exact hstage

theorem Invariant.done (h : s.Invariant P) {x : ν} {begun : ℕ} {p : Buf} {front : List UInt8}
    (hp : s.Printing P x begun [] p front) (hfield : (P.fields p x)[begun]? = none)
    {r : RadioQueue.Station} (hr : s.radio.step (.call .rxDone) = some r) :
    Invariant P { s with radio := r, stage := .idle } := by
  obtain ⟨ho, hpresented⟩ := rxDone_step h.ordered hp.packet hr
  obtain ⟨b, -, rfl⟩ := Option.map_eq_some_iff.mp hr
  obtain ⟨-, hmain⟩ := packet_eq_some hp.packet
  have hline := hp.line
  have hdone : (P.fields p x).drop begun = [] :=
    List.drop_eq_nil_of_le (List.getElem?_eq_none_iff.mp hfield)
  rw [hdone, List.append_nil, List.flatten_nil, List.append_nil] at hline
  obtain ⟨shown, hshown⟩ := List.getLast?_eq_some_iff.mp hp.last
  have hlength : shown.length = s.radio.history.presented.length := by
    have hlength := hp.shown
    rw [hshown, List.length_append] at hlength
    exact Nat.succ.inj hlength
  refine ⟨ho, h.good, ?_, h.usb, ?_⟩
  · rw [hpresented, List.forall_mem_append]
    exact ⟨h.presented, List.forall_mem_singleton.mpr (hmain ▸ h.good _)⟩
  change s.shown.length = _ ∧ s.usb.sent = P.text _ s.shown
  rw [hpresented]
  refine ⟨by rw [List.length_append, hp.shown]; rfl, ?_⟩
  rw [hp.sent, hline, hshown, text_concat hlength]
  unfold Printer.text
  rw [List.zipWith_append hlength.symm, List.flatten_append]
  exact congrArg (_ ++ ·) (List.append_nil _).symm

theorem Invariant.next (h : s.Invariant P) (ht : s.next P = some t) : t.Invariant P := by
  unfold Receiver.next at ht
  split at ht
  · next x begun p hst hpacket =>
      obtain ⟨p', front, hp⟩ := h.printing hst
      obtain rfl : p = p' := Option.some.inj (hpacket.symm.trans hp.packet)
      split at ht
      · next characters hfield =>
          obtain rfl := Option.some.inj ht
          have hline := hp.line
          have hroom := hp.room
          obtain ⟨hlt, hget⟩ := List.getElem?_eq_some_iff.mp hfield
          have hdrop := List.drop_eq_getElem_cons hlt
          rw [hget] at hdrop
          rw [hdrop, List.append_nil, List.flatten_cons, ← List.append_assoc] at hline
          rw [hdrop, List.nil_append, List.flatten_cons] at hroom
          exact ⟨h.ordered, h.good, h.presented, h.usb, p, front, hp.packet, hp.shown, hp.last,
            hp.sent, hline, hroom, hp.serviced⟩
      · next hfield =>
          obtain ⟨r, hr, rfl⟩ := Option.map_eq_some_iff.mp ht
          exact h.done hp hfield hr
  · cases ht

theorem Invariant.putchar (h : s.Invariant P) {reads : List (List HostRead)}
    (ht : s.putchar serial reads = some t) : t.Invariant P := by
  unfold Receiver.putchar at ht
  split at ht
  · next x begun c characters hst =>
      obtain ⟨u, hu, rfl⟩ := Option.map_eq_some_iff.mp ht
      obtain ⟨p, front, hp⟩ := h.printing hst
      have hroom := hp.room
      rw [List.cons_append, List.length_cons] at hroom
      have hgranted : s.usb.Granted serial (.txSendByte c reads) :=
        ⟨trivial, by change 1 ≤ _; omega, Or.inr hp.serviced⟩
      obtain rfl := Option.some.inj hu
      refine ⟨h.ordered, h.good, h.presented, h.usb.step hgranted rfl, p, front ++ [c], hp.packet,
        hp.shown, hp.last, ?_, ?_, ?_, hp.serviced⟩
      · rw [← List.append_assoc, ← hp.sent]
        rfl
      · rw [← hp.line, List.append_assoc front, List.singleton_append]
      · change _ ≤ s.usb.promised - 1
        omega
  · cases ht

theorem Invariant.step {a : Action ι} (h : s.Invariant P) (ha : s.Allowed P serial a)
    (ht : s.step P serial a = some t) : t.Invariant P := by
  cases a with
  | check i reads =>
      obtain ⟨hidle, hcheck⟩ := Option.ite_none_right_eq_some.mp ht
      obtain rfl := Option.some.inj hcheck
      exact h.check hidle i reads
  | next => exact h.next ht
  | putchar reads => exact h.putchar ht
  | radio a =>
      obtain ⟨r, hr, rfl⟩ := Option.map_eq_some_iff.mp ht
      have hcall : ∀ c, a ≠ .call c := by
        rintro c rfl
        exact ha
      have hdma : ∀ bytes, a = .dma bytes → P.Received bytes := by
        rintro bytes rfl
        exact ha
      have hdocumented : s.radio.Documented a := by
        cases a with
        | call c => exact ha.elim
        | _ => trivial
      exact h.radio (Station.ordered_step h.ordered hdocumented hr)
        (good_step hcall hdma hr h.good) (kept_step hcall hr)
  | hostRead read =>
      obtain rfl := Option.some.inj ht
      have hgranted : s.usb.Granted serial (.hostRead read) := ⟨trivial, Nat.zero_le _, Or.inl rfl⟩
      exact h.setUsb (h.usb.step hgranted rfl) rfl (.inr ⟨rfl, rfl⟩)
  | service readings now reads =>
      obtain ⟨hidle, hservice⟩ := Option.ite_none_right_eq_some.mp ht
      obtain ⟨u, hu, rfl⟩ := Option.map_eq_some_iff.mp hservice
      have hgranted : s.usb.Granted serial (.service readings now reads) :=
        ⟨ha, Nat.zero_le _, Or.inl rfl⟩
      have hinv := h.usb.step hgranted hu
      obtain ⟨c, -, rfl⟩ := Option.map_eq_some_iff.mp hu
      exact h.setUsb hinv rfl (.inl hidle)

theorem invariant_start (channel : UInt8) {c : UsbCom.Com} (hc : UsbCom.Fresh c) :
    (start P channel c).Invariant P where
  ordered :=
    ⟨(Queue.consistent_radioQueueInit channel).call (c := .allowCrcErrors P.allowCrcErrors) trivial,
      rfl, rfl, HandOver.init⟩
  good _ := P.good_zero
  presented := nofun
  usb := UsbCom.Station.invariant_start hc
  stage := ⟨rfl, rfl⟩

theorem invariant_of_run {channel : UInt8} {c : UsbCom.Com} (hc : UsbCom.Fresh c)
    (hr : Run (step P serial) (Allowed P serial) (start P channel c) s) : s.Invariant P :=
  hr.invariant (invariant_start channel hc) fun _ _ _ h ha ht => h.step ha ht

/-- The calls of the radio queue that the program makes, and what the interrupt does. -/
def Touches (a : RadioQueue.Action) : Prop := (∀ c, a ≠ .call c) ∨ a = .call .rxDone

/-- What one step does to the radio, to the variables and to what the lines show. -/
theorem step_cases {a : Action ι} (ha : s.Allowed P serial a) (ht : s.step P serial a = some t) :
    (t.radio = s.radio ∨ ∃ b, Touches b ∧ s.radio.step b = some t.radio) ∧
    (t.vars = s.vars ∧ t.shown = s.shown ∨ ∃ i, t.vars = (P.read s.vars i).2 ∧
      t.shown = s.shown ++ [(P.read s.vars i).1]) := by
  cases a with
  | check i reads =>
      obtain ⟨-, hcheck⟩ := Option.ite_none_right_eq_some.mp ht
      obtain rfl := Option.some.inj hcheck
      unfold Receiver.check
      cases s.packet with
      | none => exact ⟨.inl rfl, .inl ⟨rfl, rfl⟩⟩
      | some p =>
          dsimp only
          split
          · exact ⟨.inl rfl, .inr ⟨i, rfl, rfl⟩⟩
          · exact ⟨.inl rfl, .inl ⟨rfl, rfl⟩⟩
  | next =>
      change s.next P = some t at ht
      unfold Receiver.next at ht
      split at ht
      · split at ht
        · obtain rfl := Option.some.inj ht
          exact ⟨.inl rfl, .inl ⟨rfl, rfl⟩⟩
        · obtain ⟨r, hr, rfl⟩ := Option.map_eq_some_iff.mp ht
          exact ⟨.inr ⟨_, .inr rfl, hr⟩, .inl ⟨rfl, rfl⟩⟩
      · cases ht
  | putchar reads =>
      change s.putchar serial reads = some t at ht
      unfold Receiver.putchar at ht
      split at ht
      · obtain ⟨u, -, rfl⟩ := Option.map_eq_some_iff.mp ht
        exact ⟨.inl rfl, .inl ⟨rfl, rfl⟩⟩
      · cases ht
  | radio a =>
      obtain ⟨r, hr, rfl⟩ := Option.map_eq_some_iff.mp ht
      refine ⟨.inr ⟨a, .inl ?_, hr⟩, .inl ⟨rfl, rfl⟩⟩
      rintro c rfl
      exact ha
  | hostRead read =>
      obtain rfl := Option.some.inj ht
      exact ⟨.inl rfl, .inl ⟨rfl, rfl⟩⟩
  | service readings now reads =>
      obtain ⟨-, hservice⟩ := Option.ite_none_right_eq_some.mp ht
      obtain ⟨u, -, rfl⟩ := Option.map_eq_some_iff.mp hservice
      exact ⟨.inl rfl, .inl ⟨rfl, rfl⟩⟩

/-- What holds of the variables and of what the lines show, if every line keeps it. -/
theorem shown_of_run {R : σ → List ν → Prop} {channel : UInt8} {c : UsbCom.Com}
    (hinit : R P.init []) (hread : ∀ v xs i, R v xs → R (P.read v i).2 (xs ++ [(P.read v i).1]))
    (hr : Run (step P serial) (Allowed P serial) (start P channel c) s) : R s.vars s.shown := by
  refine Run.invariant (I := fun s => R s.vars s.shown) hr hinit fun s a t h ha ht => ?_
  obtain ⟨-, ⟨hvars, hshown⟩ | ⟨i, hvars, hshown⟩⟩ := step_cases ha ht
  · rw [hvars, hshown]
    exact h
  · rw [hvars, hshown]
    exact hread s.vars s.shown i h

/-- The program says once which packets it wants. -/
structure Allows (allow : Bool) (r : RadioQueue.Station) : Prop where
  queue : r.queue.radioQueueAllowCrcErrors = allow
  received : ∀ p crcPassed allowed owned,
    QueueEvent.received p crcPassed allowed owned ∈ r.history → allowed = allow

theorem Allows.radio {allow : Bool} {r r' : RadioQueue.Station} {a : RadioQueue.Action}
    (h : Allows allow r) (ha : Touches a) (hr : r.step a = some r') : Allows allow r' := by
  cases a with
  | call c =>
      obtain rfl : c = .rxDone := by
        rcases ha with hcall | he
        · exact absurd rfl (hcall c)
        · exact RadioQueue.Action.call.inj he
      obtain ⟨b, -, rfl⟩ := Option.map_eq_some_iff.mp hr
      refine ⟨h.queue, fun p crcPassed allowed owned hmem => ?_⟩
      rcases List.mem_append.mp hmem with hold | hnew
      · exact h.received _ _ _ _ hold
      · cases List.mem_singleton.mp hnew
  | dma bytes =>
      obtain rfl := Option.some.inj hr
      refine ⟨Eq.trans ?_ h.queue, h.received⟩
      change (r.queue.dmaReceive bytes).radioQueueAllowCrcErrors = _
      unfold Queue.dmaReceive
      split
      · next packet _ _ _ _ => cases packet <;> rfl
      · rfl
  | rfErrors f =>
      obtain rfl := Option.some.inj hr
      exact ⟨h.queue, h.received⟩
  | event e readings =>
      obtain ⟨-, he⟩ := Option.ite_none_right_eq_some.mp hr
      obtain rfl := Option.some.inj he
      refine ⟨?_, fun p crcPassed allowed owned hmem => ?_⟩
      · obtain ⟨m, hm⟩ := r.queue.radioMacEvent_eq readings e
        change (r.queue.radioMacEvent readings e).radioQueueAllowCrcErrors = allow
        rw [hm]
        exact h.queue
      · rcases List.mem_append.mp hmem with hmem | hstart
        · rcases List.mem_append.mp hmem with hold | hend
          · exact h.received _ _ _ _ hold
          · unfold Station.observeEnd at hend
            split at hend <;> simp only [Option.mem_toList, Option.map_eq_some_iff] at hend
            · obtain ⟨_, -, hev⟩ := hend
              cases hev
            · obtain ⟨_, -, hev⟩ := hend
              cases hev
              exact h.queue
            · obtain ⟨_, -, hev⟩ := hend
              cases hev
        · unfold Station.observeStart at hstart
          rw [Option.mem_toList, Option.map_eq_some_iff] at hstart
          obtain ⟨_, -, hev⟩ := hstart
          cases hev

theorem allows_of_run {channel : UInt8} {c : UsbCom.Com}
    (hr : Run (step P serial) (Allowed P serial) (start P channel c) s) :
    Allows P.allowCrcErrors s.radio := by
  refine Run.invariant (I := fun s => Allows P.allowCrcErrors s.radio) hr ⟨rfl, nofun⟩
    fun s a t h ha ht => ?_
  obtain ⟨hradio | ⟨b, hb, hstep⟩, -⟩ := step_cases ha ht
  · exact hradio.symm ▸ h
  · exact h.radio hb hstep

/-! ### The text -/

theorem text_append {packets : List Buf} {shown : List ν} (h : packets.length = shown.length)
    (more : List Buf) (last : List ν) :
    P.text (packets ++ more) (shown ++ last) = P.text packets shown ++ P.text more last := by
  unfold Printer.text
  rw [List.zipWith_append h, List.flatten_append]

/-- The text is the lines of the packets that have been given back, and a part of the line of the
next. -/
theorem Invariant.text_prefix (h : s.Invariant P) :
    P.text s.radio.history.presented s.shown <+: s.usb.sent ∧
      s.usb.sent <+: P.text s.radio.history.wanted s.shown := by
  rw [← h.ordered.received]
  have hstage := h.stage
  unfold StageInvariant at hstage
  cases hst : s.stage with
  | idle =>
      rw [hst] at hstage
      obtain ⟨hshown, hsent⟩ := hstage
      have happend := text_append (P := P) hshown.symm s.radio.queue.rxPackets []
      rw [List.append_nil] at happend
      rw [happend, hsent]
      exact ⟨List.prefix_rfl, List.prefix_append _ _⟩
  | printing x begun characters =>
      obtain ⟨p, front, hp⟩ := h.printing hst
      obtain ⟨shown, hshown⟩ := List.getLast?_eq_some_iff.mp hp.last
      have hlength : shown.length = s.radio.history.presented.length := by
        have hlength := hp.shown
        rw [hshown, List.length_append] at hlength
        exact Nat.succ.inj hlength
      have hhead := (packet_eq_head h.ordered.consistent).symm.trans hp.packet
      obtain ⟨rest, hrest⟩ := List.head?_eq_some_iff.mp hhead
      have hwanted : P.text (p :: rest) [x] = P.line p x := by
        unfold Printer.text
        rw [List.zipWith_cons_cons, List.zipWith_nil_right]
        exact List.append_nil _
      have hsent := hp.sent
      rw [hshown, text_concat hlength] at hsent
      rw [hrest, hshown, text_append hlength.symm, text_concat hlength, hwanted, hsent, ← hp.line,
        List.append_assoc]
      exact ⟨List.prefix_append _ _, (List.prefix_append_right_inj _).mpr (List.prefix_append _ _)⟩

theorem body_line (p : Buf) (x : ν) : 10 ∉ P.body p x ∧ P.body p x ++ [10] = P.line p x := by
  obtain ⟨l, hl, hline⟩ := P.ends p x
  unfold Printer.body Printer.line
  rw [hline, List.dropLast_concat]
  exact ⟨hl, rfl⟩

theorem text_eq_unlines (packets : List Buf) (shown : List ν) :
    P.text packets shown = unlines 10 (List.zipWith P.body packets shown) := by
  unfold Printer.text unlines
  rw [List.flatMap_def, List.map_zipWith]
  congr 2
  funext p x
  exact (body_line p x).2.symm

/-- The complete lines that the computer has read are those of the first packets of the queue. -/
theorem Invariant.lines_received (h : s.Invariant P) :
    lines 10 s.usb.com.ep4.received.flatten <+:
      List.zipWith P.body s.radio.history.wanted s.shown := by
  apply lines_prefix
  · intro l hl
    obtain ⟨i, hi, rfl⟩ := List.mem_iff_getElem.mp hl
    rw [List.getElem_zipWith]
    exact (body_line _ _).1
  · rw [← text_eq_unlines]
    refine List.IsPrefix.trans ?_ h.text_prefix.2
    rw [← h.usb.isStream.bytes, Usb.EndpointIn.committed, List.flatten_append, List.append_assoc]
    exact List.prefix_append _ _

theorem Invariant.wanted (h : s.Invariant P) : ∀ p ∈ s.radio.history.wanted, P.Good p := by
  rw [← h.ordered.received, List.forall_mem_append]
  refine ⟨h.presented, fun p hp => ?_⟩
  obtain ⟨i, -, rfl⟩ := List.mem_map.mp hp
  exact h.good i

/-- Whoever can read a line can read what the computer has got. -/
theorem Invariant.read_lines {γ : Type*} {readLine : List UInt8 → γ} {report : Buf → ν → γ}
    (h : s.Invariant P) (hread : ∀ p x, P.Good p → readLine (P.body p x) = report p x) :
    (lines 10 s.usb.com.ep4.received.flatten).map readLine <+:
      List.zipWith report s.radio.history.wanted s.shown := by
  have hlines := h.lines_received.map readLine
  have hreports : (List.zipWith P.body s.radio.history.wanted s.shown).map readLine =
      List.zipWith report s.radio.history.wanted s.shown := by
    apply List.ext_getElem
    · rw [List.length_map, List.length_zipWith, List.length_zipWith]
    · intro i _ _
      rw [List.getElem_map, List.getElem_zipWith, List.getElem_zipWith]
      exact hread _ _ (h.wanted _ (List.getElem_mem _))
  rw [← hreports]
  exact hlines

end Receiver

end WixelSdk.PacketPrinter
