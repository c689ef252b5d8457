import WixelSdk.RadioComRx

/-!
# Receiving under the documented rule
-/

namespace WixelSdk.RadioCom
open RadioMac RadioLink Transition InBand

namespace Host

variable {h t : Host} {a : HostAction}

def told (log : List Call) : List (Item UInt8 UInt8) :=
  log.filterMap fun
    | .rxReceiveByte byte => some (.data byte)
    | .rxControlSignals v => some (.signal v)
    | _ => none

def view (h : Host) : Reader UInt8 UInt8 := h.com.view (told h.log)

/-- The rule of `radio_com.h`. -/
def ReceiveRule (h : Host) : HostAction → Prop
  | .rxReceiveByte _ => 1 ≤ rxAllowance h.log
  | _ => True

instance (h : Host) (a : HostAction) : Decidable (ReceiveRule h a) := by
  rcases a with ⟨⟩ <;> dsimp only [ReceiveRule] <;> infer_instance

def StaysOnChannel : HostAction → Prop
  | .changeChannel _ => False
  | _ => True

instance (a : HostAction) : Decidable (StaysOnChannel a) := by
  rcases a with ⟨⟩ <;> dsimp only [StaysOnChannel] <;> infer_instance

structure Receiving (h : Host) : Prop where
  reading : Com.Reading h.com
  allowance : rxAllowance h.log ≤ h.com.rxBytesLeft.toNat

theorem rxAllowance_append (log : List Call) (call : Call) :
    rxAllowance (log ++ [call]) = match call with
      | .rxAvailable v => v.toNat
      | .rxReceiveByte _ => rxAllowance log - 1
      | _ => rxAllowance log := by
  unfold rxAllowance
  rw [List.foldl_append]
  cases call <;> rfl

theorem told_append (log : List Call) (call : Call) :
    told (log ++ [call]) = told log ++ match call with
      | .rxReceiveByte byte => [.data byte]
      | .rxControlSignals v => [.signal v]
      | _ => [] := by
  unfold told
  rw [List.filterMap_append]
  cases call <;> rfl

/-- From `h` to `t` the reader moves. -/
structure Proceeds (h t : Host) : Prop where
  receiving : Receiving t
  radioComRxEnforceOrdering : t.com.radioComRxEnforceOrdering = h.com.radioComRxEnforceOrdering
  accepted : h.com.link.accepted <+: t.com.link.accepted
  moves : Relation.ReflTransGen (Move (h.com.radioComRxEnforceOrdering = true)) h.view t.view

theorem Receiving.still {c : Com} {log : List Call} (hr : Receiving h) (hstill : Com.RxStill h.com c)
    (hallowance : rxAllowance log = rxAllowance h.log) (htold : told log = told h.log) :
    Proceeds h ⟨c, log⟩ := by
  have hadvances := hstill.advances hr.reading
  refine ⟨⟨hadvances.reading, ?_⟩, hadvances.radioComRxEnforceOrdering, hadvances.accepted, ?_⟩
  · change rxAllowance log ≤ c.rxBytesLeft.toNat
    rw [hallowance, hstill.rxBytesLeft]
    exact hr.allowance
  · change Relation.ReflTransGen _ _ (c.view (told log))
    rw [htold]
    exact hadvances.moves _

theorem receiveMorePackets_of_left {c d : Com} (hl : c.rxBytesLeft ≠ 0)
    (hd : c.receiveMorePackets = .ok d) : d = c := by
  rw [Com.receiveMorePackets, if_pos hl] at hd
  exact (Except.ok.inj hd).symm

theorem Receiving.left (hr : Receiving h) {is : List (List Irq)}
    (ha : ReceiveRule h (.rxReceiveByte is)) : 1 ≤ h.com.rxBytesLeft.toNat ∧ h.com.rxBytesLeft ≠ 0 := by
  have hpos : 1 ≤ h.com.rxBytesLeft.toNat := Nat.le_trans ha hr.allowance
  refine ⟨hpos, fun he => ?_⟩
  rw [he] at hpos
  exact absurd hpos (by decide)

/-- A call of `radioComRxReceiveByte` within the allowance. -/
theorem Receiving.receiveByte (hr : Receiving h) {is : List (List Irq)}
    (ha : ReceiveRule h (.rxReceiveByte is)) (ht : h.step (.rxReceiveByte is) = some t) :
    Proceeds h t := by
  have hsched : Com.RxStill h.com (h.com.schedule is) :=
    Com.rxStill_schedule hr.reading.serviceable is
  obtain rfl := Option.some.inj ht
  obtain ⟨hpos, hl⟩ := hr.left ha
  obtain ⟨hreading, hleft, henforce, haccepted, hmoves⟩ :=
    Com.radioComRxReceiveByte_spec (hr.reading.still hsched) hl
  refine ⟨⟨hreading, ?_⟩, henforce, haccepted, ?_⟩
  · have hsub : (h.com.rxBytesLeft - 1).toNat = h.com.rxBytesLeft.toNat - 1 :=
      UInt8.toNat_sub_of_le _ _ (UInt8.le_iff_toNat_le.mpr hpos)
    change rxAllowance (h.log ++ [_]) ≤
      ((h.com.schedule is).radioComRxReceiveByte.1.rxBytesLeft).toNat
    rw [rxAllowance_append, hleft]
    change _ ≤ (h.com.rxBytesLeft - 1).toNat
    rw [hsub]
    exact Nat.sub_le_sub_right hr.allowance 1
  · change Relation.ReflTransGen _ _ (Com.view _ (told (h.log ++ [_])))
    rw [told_append]
    exact hmoves _

/-- A call of `radioComRxControlSignals`, which first looks for more packets. -/
theorem Receiving.controlSignals (hr : Receiving h) {is : List (List Irq)}
    (ht : h.step (.rxControlSignals is) = some t) : Proceeds h t := by
  have hsched : Com.RxStill h.com (h.com.schedule is) :=
    Com.rxStill_schedule hr.reading.serviceable is
  obtain ⟨d, hd, rfl⟩ := step_rxControlSignals ht
  have hadvances : Com.Advances h.com d :=
    (Com.rxRule_advances h.com).receiveMorePackets (hsched.advances hr.reading) hd
  refine ⟨⟨Com.reading_reportSignals hadvances.reading, ?_⟩,
    hadvances.radioComRxEnforceOrdering, hadvances.accepted, ?_⟩
  · change rxAllowance (h.log ++ [_]) ≤ d.rxBytesLeft.toNat
    rw [rxAllowance_append]
    by_cases hl : h.com.rxBytesLeft = 0
    · have hzero := hr.allowance
      rw [hl, UInt8.toNat_zero] at hzero
      exact Nat.le_trans hzero (Nat.zero_le _)
    · rw [receiveMorePackets_of_left (c := h.com.schedule is) hl hd]
      exact hr.allowance
  · change Relation.ReflTransGen _ _ (Com.view _ (told (h.log ++ [_])))
    rw [told_append]
    have hreport := Com.move_reportSignals d (told h.log)
    rw [hadvances.radioComRxEnforceOrdering] at hreport
    exact (hadvances.moves _).tail hreport

theorem Receiving.step (hr : Receiving h) (ha : ReceiveRule h a) (hstay : StaysOnChannel a)
    (ht : h.step a = some t) : Proceeds h t := by
  have hs := hr.reading.serviceable
  have hsched : ∀ is, Com.RxStill h.com (h.com.schedule is) := Com.rxStill_schedule hs
  cases a with
  | changeChannel channel => exact hstay.elim
  | interrupts is =>
      obtain rfl := Option.some.inj ht
      exact hr.still (Com.rxStill_interrupts hs is) rfl rfl
  | txService is =>
      obtain rfl := Option.some.inj ht
      exact hr.still ((Com.txRule_rxStill h.com).radioComTxService (hsched is))
        (rxAllowance_append _ _) ((told_append _ _).trans (List.append_nil _))
  | txAvailable =>
      obtain rfl := Option.some.inj ht
      exact hr.still (.refl hs) (rxAllowance_append _ _)
        ((told_append _ _).trans (List.append_nil _))
  | txSendByte byte is =>
      obtain rfl := Option.some.inj ht
      exact hr.still ((Com.linkRule_rxStill h.com).radioComTxSendByte (hsched is) byte)
        (rxAllowance_append _ _) ((told_append _ _).trans (List.append_nil _))
  | txControlSignals v is =>
      obtain rfl := Option.some.inj ht
      exact hr.still ((hsched is).trans
        (Com.rxStill_radioComTxControlSignals (hsched is).serviceable v))
        (rxAllowance_append _ _) ((told_append _ _).trans (List.append_nil _))
  | rxAvailable is =>
      obtain ⟨d, hd, rfl⟩ := step_rxAvailable ht
      have hadvances : Com.Advances h.com d :=
        (Com.rxRule_advances h.com).receiveMorePackets ((hsched is).advances hr.reading) hd
      refine ⟨⟨hadvances.reading, ?_⟩, hadvances.radioComRxEnforceOrdering, hadvances.accepted, ?_⟩
      · exact Nat.le_of_eq (rxAllowance_append _ _)
      · change Relation.ReflTransGen _ _ (d.view (told (h.log ++ [_])))
        rw [told_append, List.append_nil]
        exact hadvances.moves _
  | rxReceiveByte is => exact hr.receiveByte ha ht
  | rxControlSignals is => exact hr.controlSignals ht

theorem receiving_init (enforce : Bool) (channel : UInt8) : Receiving (init enforce channel) where
  reading := ⟨Node.serviceable_radioLinkInit channel, fun hl => absurd rfl hl,
    fun hl => absurd rfl hl, nofun, nofun, nofun⟩
  allowance := Nat.le_refl 0

end Host
end WixelSdk.RadioCom
