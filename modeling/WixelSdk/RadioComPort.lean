import WixelSdk.RadioComTraffic
import WixelSdk.Relay

/-!
# The byte stream layer as a port

The main loop asks for room before each byte that it sends, and for bytes before each one that it
receives, so that both rules of `radio_com.h` are kept. Without radioComRxEnforceOrdering the bytes
still come out in the order of the accepted packets, and none is lost.
-/

namespace WixelSdk.InBand

variable {α β : Type*} {ordered : Prop} {r s : Reader α β}

/-- The data are those that the caller has been told, followed by those that are left. -/
def DataKept (r : Reader α β) : Prop := data r.accepted = data r.output ++ data r.unread

theorem Move.dataKept (h : Move ordered r s) (hr : DataKept r) : DataKept s := by
  cases h with
  | arrive xs =>
      change data (r.accepted ++ xs) = data r.output ++ data (r.unread ++ xs)
      rw [data_append, data_append, hr, List.append_assoc]
  | take v xs hunread =>
      have hdata := hr
      unfold DataKept at hdata
      rw [hunread] at hdata
      exact hdata
  | read a xs hunread =>
      have hdata := hr
      unfold DataKept at hdata
      rw [hunread] at hdata
      change data r.accepted = data (r.output ++ [.data a]) ++ data xs
      rw [hdata, data_append, List.append_assoc]
      rfl
  | report =>
      change data r.accepted = data (r.output ++ [.signal r.signal]) ++ data r.unread
      rw [data_append, hr]
      simp [data, Item.data?]

theorem DataKept.of_moves (h : Relation.ReflTransGen (Move ordered) r s) (hr : DataKept r) :
    DataKept s := by
  induction h with
  | refl => exact hr
  | tail _ hm ih => exact hm.dataKept ih

end WixelSdk.InBand

namespace WixelSdk.RadioCom
open RadioMac RadioLink Transition InBand Relay

inductive Event
  | interrupts (is : List Irq)
  | txService (is : List (List Irq))

def Event.action : Event → HostAction
  | .interrupts is => .interrupts is
  | .txService is => .txService is

namespace Host

/-- The port for a relay. What happens while a call runs is what the interrupts do. -/
def port : Port Host UInt8 (List (List Irq)) Event where
  idle _ := true
  rxAvailable h is := (h.com.schedule is).radioComRxAvailable.toOption.map fun r =>
    (r.2 != 0, h.returned r.1 (.rxAvailable r.2))
  rxReceiveByte h is :=
    some ((h.com.schedule is).radioComRxReceiveByte.2,
      h.returned (h.com.schedule is).radioComRxReceiveByte.1
        (.rxReceiveByte (h.com.schedule is).radioComRxReceiveByte.2))
  txAvailable h _ := some (h.com.radioComTxAvailable != 0,
    h.returned h.com (.txAvailable h.com.radioComTxAvailable))
  txSendByte h byte is := some (h.returned ((h.com.schedule is).radioComTxSendByte byte)
    (.txSendByte byte h.com.radioComTxSignals))
  isCall
    | .interrupts _ => false
    | .txService _ => true
  event h e := h.step e.action

structure Valid (h : Host) : Prop where
  packed : Packed h
  receiving : Receiving h
  kept : DataKept h.view
  traffic : ∃ channel, (Node.powerUp.radioLinkInit channel).Follows h.com.passed h.com.link

def portView : View Host UInt8 where
  Valid := Valid
  HasByte h := 1 ≤ rxAllowance h.log
  HasRoom h := lastTxAvailable h.log ≠ 0
  received h := data (told h.log)
  sent h := (sentBytes h.log).map Prod.fst

theorem valid_init (enforce : Bool) (channel : UInt8) : Valid (init enforce channel) :=
  ⟨packed_init enforce channel, receiving_init enforce channel, rfl, channel, .refl⟩

variable {h t : Host} {a : HostAction}

theorem Valid.step (hv : Valid h) (hp : Polled h a) (hr : ReceiveRule h a)
    (hstay : StaysOnChannel a) (ht : h.step a = some t) : Valid t := by
  have hproceeds := hv.receiving.step hr hstay ht
  obtain ⟨channel, hfollows⟩ := hv.traffic
  obtain ⟨ps, hps, hweaves⟩ := weaves_step hv.packed hv.receiving hp hr hstay ht
  refine ⟨hv.packed.step hp ht, hproceeds.receiving, hv.kept.of_moves hproceeds.moves, channel, ?_⟩
  rw [hps]
  exact hfollows.trans hweaves

theorem data_told_append (log : List Call) (call : Call) :
    data (told (log ++ [call])) = data (told log) ++ match call with
      | .rxReceiveByte byte => [byte]
      | _ => [] := by
  rw [told_append, data_append]
  cases call <;> rfl

theorem sentBytes_append (log : List Call) (call : Call) :
    (sentBytes (log ++ [call])).map Prod.fst = (sentBytes log).map Prod.fst ++ match call with
      | .txSendByte byte _ => [byte]
      | _ => [] := by
  unfold sentBytes
  rw [List.filterMap_append, List.map_append]
  cases call <;> rfl

theorem contract : Contract port portView fun _ _ => True where
  rxAvailable {h t is b} hv he := by
    obtain ⟨⟨c, n⟩, hc, heq⟩ := Option.map_eq_some_iff.mp he
    obtain ⟨rfl, rfl⟩ := Prod.mk.inj heq
    have hstep : h.step (.rxAvailable is) = some (h.returned c (.rxAvailable n)) :=
      Option.map_eq_some_iff.mpr ⟨_, hc, rfl⟩
    refine ⟨⟨hv.step (a := .rxAvailable is) trivial trivial trivial hstep, data_told_append _ _,
      sentBytes_append _ _⟩, ?_⟩
    intro hb
    change 1 ≤ rxAllowance (h.log ++ [.rxAvailable n])
    rw [rxAllowance_append]
    exact Nat.pos_of_ne_zero fun hz => bne_iff_ne.mp hb (UInt8.toNat_inj.mp hz)
  rxReceiveByte {h t is byte} hv hbyte he := by
    obtain ⟨rfl, rfl⟩ := Prod.mk.inj (Option.some.inj he)
    exact ⟨hv.step (a := .rxReceiveByte is) trivial hbyte trivial rfl, data_told_append _ _,
      sentBytes_append _ _⟩
  txAvailable {h t is b} hv he := by
    obtain ⟨rfl, rfl⟩ := Prod.mk.inj (Option.some.inj he)
    refine ⟨⟨hv.step (a := .txAvailable) trivial trivial trivial rfl, data_told_append _ _,
      sentBytes_append _ _⟩, fun hb => ?_⟩
    change lastTxAvailable (h.log ++ [.txAvailable h.com.radioComTxAvailable]) ≠ 0
    rw [lastTxAvailable_append_txAvailable]
    exact bne_iff_ne.mp hb
  txSendByte {h t is byte} hv hroom he := by
    obtain rfl := Option.some.inj he
    exact ⟨hv.step (a := .txSendByte byte is) hroom trivial trivial rfl, data_told_append _ _,
      sentBytes_append _ _⟩
  event {h t e} hv _ he := by
    cases e with
    | interrupts is =>
        have hvalid := hv.step (a := .interrupts is) trivial trivial trivial he
        obtain rfl := Option.some.inj he
        exact ⟨hvalid, (List.append_nil _).symm, (List.append_nil _).symm⟩
    | txService is =>
        have hvalid := hv.step (a := .txService is) trivial trivial trivial he
        obtain rfl := Option.some.inj he
        exact ⟨hvalid, data_told_append _ _, sentBytes_append _ _⟩
  hasByte {h t e} _ _ hcall he hbyte := by
    cases e with
    | interrupts is =>
        obtain rfl := Option.some.inj he
        exact hbyte
    | txService is => cases hcall
  hasRoom {h t e} _ _ hcall he hroom := by
    cases e with
    | interrupts is =>
        obtain rfl := Option.some.inj he
        exact hroom
    | txService is => cases hcall

/-- The bytes accepted for sending are those in the queued packets and in the one under
construction. -/
theorem Valid.sent (hv : Valid h) :
    portView.sent h = dataBytes h.com.link.sent ++ h.com.loadedBytes := by
  change (sentBytes h.log).map Prod.fst = _
  rw [hv.packed.packing.bytes, List.map_append, map_fst_stamped, List.map_map]
  congr 1
  exact List.map_id _

theorem Valid.received (hv : Valid h) :
    dataBytes h.com.link.accepted = portView.received h ++ dataBytes h.com.unread := by
  rw [← data_items, ← data_items]
  exact hv.kept

end Host

end WixelSdk.RadioCom
