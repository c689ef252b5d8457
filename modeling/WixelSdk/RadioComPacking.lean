import WixelSdk.RadioComTx

/-!
# The transmitted stream

`Packing bs c` says that the bytes `bs` are those in the queued data packets followed by those under
construction, and that each carries the control signals that were in force when it was accepted: the
signals change only after the packet under construction has been queued, and no byte is accepted
until the new signals are queued too.
-/

namespace WixelSdk.RadioCom
open RadioMac RadioLink Transition InBand

namespace Com

variable {c d : Com} {bs : List (UInt8 × UInt8)}

structure Packing (bs : List (UInt8 × UInt8)) (c : Com) : Prop extends Building c where
  bytes : bs = stamped 0 c.link.sent ++ c.loadedBytes.map (·, signalsAfter 0 c.link.sent)
  signals : c.sendSignalsSoon = false → signalsAfter 0 c.link.sent = c.radioComTxSignals

theorem loadedBytes_eq_nil (h : c.txBytesLoaded = 0) : c.loadedBytes = [] := by
  unfold loadedBytes
  rw [h]
  rfl

theorem Packing.still (h : Packing bs c) (h' : Still c d) : Packing bs d where
  toBuilding := h.toBuilding.still h'
  bytes := by rw [h'.sent, h'.loadedBytes]; exact h.bytes
  signals hd := by
    rw [h'.sent, h'.radioComTxSignals]
    exact h.signals (h'.sendSignalsSoon hd)

theorem stamped_append_data (v : UInt8) (ps : List Packet) (bytes : List UInt8) :
    stamped v (ps ++ [⟨payloadTypeData, bytes⟩]) =
      stamped v ps ++ bytes.map (·, signalsAfter v ps) := by
  rw [stamped, items_append, items_data, stamp_append, stamp_map_data]
  rfl

theorem signalsAfter_append_data (v : UInt8) (ps : List Packet) (bytes : List UInt8) :
    signalsAfter v (ps ++ [⟨payloadTypeData, bytes⟩]) = signalsAfter v ps := by
  rw [signalsAfter, items_append, items_data, last_append, last_map_data]
  rfl

theorem stamped_append_signals (v : UInt8) (ps : List Packet) (w : UInt8) :
    stamped v (ps ++ [⟨payloadTypeControlSignals, [w]⟩]) = stamped v ps := by
  rw [stamped, items_append, items_signals, stamp_append]
  exact List.append_nil _

theorem signalsAfter_append_signals (v : UInt8) (ps : List Packet) (w : UInt8) :
    signalsAfter v (ps ++ [⟨payloadTypeControlSignals, [w]⟩]) = w := by
  rw [signalsAfter, items_append, items_signals, last_append]
  rfl

theorem Packing.radioComSendDataNow (h : Packing bs c) (hl : c.txBytesLoaded ≠ 0) :
    Packing bs c.radioComSendDataNow := by
  have hq := queues_radioComSendDataNow (h.packet hl) hl
  refine ⟨h.toBuilding.queues hq rfl, ?_, ?_⟩
  · rw [hq.sent, stamped_append_data, loadedBytes_eq_nil (c := c.radioComSendDataNow) rfl,
      List.map_nil, List.append_nil]
    exact h.bytes
  · intro hsoon
    rw [hq.sent, signalsAfter_append_data, hq.radioComTxSignals]
    exact h.signals (c.radioComSendDataNow_sendSignalsSoon ▸ hsoon)

theorem Packing.radioComSendControlSignalsNow (h : Packing bs c) (hl : c.txBytesLoaded = 0)
    (hfree : c.link.radioLinkTxQueued < 15) : Packing bs c.radioComSendControlSignalsNow := by
  have hq := queues_radioComSendControlSignalsNow h.serviceable hfree
  have hl' := c.radioComSendControlSignalsNow_txBytesLoaded.trans hl
  refine ⟨h.toBuilding.queues hq hl', ?_, ?_⟩
  · have hbytes := h.bytes
    rw [loadedBytes_eq_nil hl] at hbytes
    rw [hq.sent, stamped_append_signals, loadedBytes_eq_nil hl']
    exact hbytes
  · intro _
    rw [hq.sent, signalsAfter_append_signals, hq.radioComTxSignals]

theorem txRule_packing (bs : List (UInt8 × UInt8)) : TxRule (Packing bs) where
  serviceable _ h := h.serviceable
  interrupt _ h := h.still (still_interrupt h.serviceable)
  notice _ h := h.still (still_noticeReset h.serviceable)
  data _ h hl := h.radioComSendDataNow hl
  signals _ h hl hfree := h.radioComSendControlSignalsNow hl hfree

theorem Packing.radioComTxControlSignals (h : Packing bs c) (v : UInt8) :
    Packing bs (c.radioComTxControlSignals v) := by
  unfold Com.radioComTxControlSignals
  split_ifs
  · have hrequest : Packing bs (c.requestSignals v) :=
      ⟨h.toBuilding.requestSignals v, h.bytes, nofun⟩
    exact (txRule_packing bs).radioComTxService hrequest
  · exact h

/-- What `radioComTxAvailable` promises when it returns non-zero. -/
def Ready (c : Com) : Prop :=
  c.sendSignalsSoon = false ∧ (c.txBytesLoaded ≠ 0 ∨ c.link.radioLinkTxQueued < 15)

theorem ready_of_radioComTxAvailable (h : c.radioComTxAvailable ≠ 0) : Ready c := by
  unfold radioComTxAvailable at h
  split_ifs at h with hsoon
  · exact absurd rfl h
  · refine ⟨by simpa using hsoon, ?_⟩
    by_contra hc
    simp only [not_or, not_not, not_lt] at hc
    have hsum := c.link.radioLinkTxAvailable_add_queued
    have havail : c.link.radioLinkTxAvailable = 0 := by omega
    rw [havail, hc.1] at h
    exact h rfl

theorem Packing.radioComTxSendByte (h : Packing bs c) (hready : Ready c) (byte : UInt8) :
    Packing (bs ++ [(byte, c.radioComTxSignals)]) (c.radioComTxSendByte byte) := by
  obtain ⟨hsignals, hsoon, hcases⟩ := radioComTxSendByte_cases h.toBuilding hready.2 byte
  have hlast := h.signals hready.1
  rcases hcases with ⟨-, hb, hbytes, hsent, -⟩ | ⟨-, hl, hq⟩
  · refine ⟨hb, ?_, fun _ => ?_⟩
    · rw [hsent, hbytes, h.bytes, ← hlast, List.map_append, List.append_assoc, List.map_singleton]
    · rw [hsent, hsignals]
      exact hlast
  · refine ⟨h.toBuilding.queues hq hl, ?_, fun _ => ?_⟩
    · rw [hq.sent, stamped_append_data, loadedBytes_eq_nil hl, h.bytes, ← hlast, List.map_append,
        List.map_nil, List.append_nil, List.append_assoc, List.map_singleton]
    · rw [hq.sent, signalsAfter_append_data, hsignals]
      exact hlast

end Com

namespace Host

variable {h t : Host} {a : HostAction}

def sentBytes (log : List Call) : List (UInt8 × UInt8) :=
  log.filterMap fun
    | .txSendByte byte controlSignals => some (byte, controlSignals)
    | _ => none

/-- What `radioComTxAvailable` returned, if that was the last call. -/
def lastTxAvailable (log : List Call) : UInt8 :=
  match log.getLast? with
  | some (.txAvailable v) => v
  | _ => 0

/-- A byte is sent only if the call before was `radioComTxAvailable`, which returned non-zero. -/
def Polled (h : Host) : HostAction → Prop
  | .txSendByte _ _ => lastTxAvailable h.log ≠ 0
  | _ => True

instance (h : Host) (a : HostAction) : Decidable (Polled h a) := by
  rcases a with ⟨⟩ <;> dsimp only [Polled] <;> infer_instance

structure Packed (h : Host) : Prop where
  packing : Com.Packing (sentBytes h.log) h.com
  ready : lastTxAvailable h.log ≠ 0 → Com.Ready h.com

theorem lastTxAvailable_append {log : List Call} {call : Call}
    (hcall : ∀ v, call ≠ .txAvailable v) : lastTxAvailable (log ++ [call]) = 0 := by
  unfold lastTxAvailable
  rw [List.getLast?_concat]
  cases call <;> first | rfl | exact absurd rfl (hcall _)

theorem lastTxAvailable_append_txAvailable {log : List Call} {v : UInt8} :
    lastTxAvailable (log ++ [.txAvailable v]) = v := by
  unfold lastTxAvailable
  rw [List.getLast?_concat]

theorem Packed.returned {c : Com} {call : Call} (hcall : ∀ v, call ≠ .txAvailable v)
    (hc : Com.Packing (sentBytes (h.log ++ [call])) c) : Packed (h.returned c call) :=
  ⟨hc, fun hne => absurd (lastTxAvailable_append hcall) hne⟩

theorem sentBytes_append_none {log : List Call} {call : Call}
    (hcall : ∀ b v, call ≠ .txSendByte b v) : sentBytes (log ++ [call]) = sentBytes log := by
  unfold sentBytes
  rw [List.filterMap_append]
  cases call <;> first | exact List.append_nil _ | exact absurd rfl (hcall _ _)

theorem Packed.unsent {c : Com} {call : Call} (hcall : ∀ v, call ≠ .txAvailable v)
    (hbyte : ∀ b v, call ≠ .txSendByte b v) (hc : Com.Packing (sentBytes h.log) c) :
    Packed (h.returned c call) := by
  refine .returned hcall ?_
  rw [sentBytes_append_none hbyte]
  exact hc

theorem Packed.step (hp : Packed h) (ha : Polled h a) (ht : h.step a = some t) : Packed t := by
  have hs := hp.packing.serviceable
  have hsched : ∀ is, Com.Packing (sentBytes h.log) (h.com.schedule is) := fun is =>
    hp.packing.still (Com.still_schedule hs is)
  have hstill : ¬ a.Transmits → Com.Packing (sentBytes h.log) t.com := fun hna =>
    hp.packing.still (still_step hs hna ht)
  cases a with
  | interrupts is =>
      obtain rfl := Option.some.inj ht
      refine ⟨hstill id, fun hne => ?_⟩
      obtain ⟨hsoon, hroom⟩ := hp.ready hne
      exact ⟨hsoon, hroom.imp id (Nat.lt_of_le_of_lt (hs.interrupts is).1.queued)⟩
  | txService is =>
      obtain rfl := Option.some.inj ht
      exact .unsent nofun nofun ((Com.txRule_packing _).radioComTxService (hsched is))
  | txAvailable =>
      obtain rfl := Option.some.inj ht
      have hsent : sentBytes (h.log ++ [.txAvailable h.com.radioComTxAvailable]) =
          sentBytes h.log := sentBytes_append_none nofun
      refine ⟨hsent ▸ hp.packing, fun hne => Com.ready_of_radioComTxAvailable ?_⟩
      exact fun he => hne (lastTxAvailable_append_txAvailable.trans he)
  | txSendByte byte is =>
      obtain rfl := Option.some.inj ht
      refine .returned nofun ?_
      have hsent := (hsched is).radioComTxSendByte (hp.ready ha) byte
      rw [sentBytes, List.filterMap_append]
      exact hsent
  | txControlSignals v is =>
      obtain rfl := Option.some.inj ht
      exact .unsent nofun nofun ((hsched is).radioComTxControlSignals v)
  | rxAvailable is =>
      obtain ⟨d, -, rfl⟩ := step_rxAvailable ht
      exact .unsent nofun nofun (hstill id)
  | rxReceiveByte is =>
      obtain rfl := Option.some.inj ht
      exact .unsent nofun nofun (hstill id)
  | rxControlSignals is =>
      obtain ⟨d, -, rfl⟩ := step_rxControlSignals ht
      exact .unsent nofun nofun (hstill id)
  | changeChannel channel =>
      obtain rfl := Option.some.inj ht
      exact .unsent nofun nofun (hstill id)

theorem packed_init (enforce : Bool) (channel : UInt8) : Packed (init enforce channel) where
  packing := ⟨Com.building_init enforce channel, rfl, fun _ => rfl⟩
  ready hne := absurd rfl hne

theorem transmitted_stream {enforce : Bool} {channel : UInt8}
    (hr : Run step Polled (init enforce channel) h) :
    dataBytes h.com.link.sent ++ h.com.loadedBytes = (sentBytes h.log).map Prod.fst ∧
    stamped 0 h.com.link.sent ++ h.com.loadedBytes.map (·, signalsAfter 0 h.com.link.sent) =
      sentBytes h.log ∧
    ∀ p ∈ h.com.link.sent, p.payloadType = payloadTypeData →
      1 ≤ p.payload.length ∧ p.payload.length ≤ 18 := by
  have hp : Packed h := Run.invariant hr (packed_init enforce channel)
    fun _ _ _ hp ha ht => hp.step ha ht
  have hbytes := hp.packing.bytes
  refine ⟨?_, hbytes.symm, fun p hmem _ => ?_⟩
  · rw [hbytes, List.map_append, map_fst_stamped, List.map_map]
    congr 1
    exact (List.map_id _).symm
  · obtain ⟨e, he, hsome⟩ := List.mem_filterMap.mp hmem
    cases e with
    | queued b q p' =>
        obtain rfl := Option.some.inj hsome
        obtain ⟨-, -, hvalid⟩ := hp.packing.orderly _ _ _ he
        exact ⟨hvalid.1, hvalid.2.1⟩
    | accepted => cases hsome
    | released => cases hsome
    | resetReceived => cases hsome

/-- The signals 3 are sent between the bytes 1 and 2, and the byte 2 is still under construction. -/
theorem transmitted_stream_around_signals : ∃ h : Host,
    (h.com.link.sent = [⟨0, [1]⟩, ⟨1, [3]⟩] ∧ h.com.loadedBytes = [2]) ∧
    dataBytes h.com.link.sent ++ h.com.loadedBytes = (sentBytes h.log).map Prod.fst ∧
    stamped 0 h.com.link.sent ++ h.com.loadedBytes.map (·, signalsAfter 0 h.com.link.sent) =
      sentBytes h.log ∧
    ∀ p ∈ h.com.link.sent, p.payloadType = payloadTypeData →
      1 ≤ p.payload.length ∧ p.payload.length ≤ 18 := by
  have hrun : (exec step Polled (init false 128)
      [.txAvailable, .txSendByte 1 [], .txControlSignals 3 [], .txAvailable,
        .txSendByte 2 []]).map (fun h => (h.com.link.sent, h.com.loadedBytes)) =
      some ([⟨0, [1]⟩, ⟨1, [3]⟩], [2]) := by decide +kernel
  obtain ⟨h, hr, hobs⟩ := exists_run_of_exec hrun
  exact ⟨h, Prod.mk.inj hobs, transmitted_stream hr⟩

end Host
end WixelSdk.RadioCom
