import WixelSdk.SerialI2c

/-!
# Bytes on a started bus

The bridge transfers bytes in the states `getAddr` and `getData`. They are in a transaction of the
library when these states are entered and left together with it: `Ready` is that invariant, and
`Proper` says which calls keep it.
-/

namespace WixelSdk.SerialI2c
open I2c Transition

namespace Bridge

variable {b : Bridge} {cmdTimeoutMs : ℤ} {rx : Option UInt8} {a : Service}

/-- Where the parser waits for a byte to transfer, the library has a transaction. -/
def Ready (b : Bridge) : Prop :=
  b.state = .getAddr ∨ b.state = .getData → b.lib.started = true

/-- A command byte after which the parser does not wait for a byte to transfer in vain: a start
begins a transaction, a length other than 0 comes within one, and a data byte that is not the last
is acknowledged. -/
def CmdProper (b : Bridge) (byte : UInt8) : Prop :=
  match b.state with
  | .idle => byte = cmdStart → b.lib.i2cStart.internalTimeoutOccurred = false
  | .getAddr => True
  | .getLen => byte > 0 → b.lib.started = true
  | .getData => b.dataLength = 1 ∨ ((b.lib.i2cWriteByte byte).1 = false ∧
      (b.lib.i2cWriteByte byte).2.internalTimeoutOccurred = false)

/-- The same for whatever a call does. -/
def ProcessProper (b : Bridge) (cmdTimeoutMs : ℤ) (rx : Option UInt8) : Prop :=
  if b.dataDirIsRead ∧ b.state = .getData then
    b.dataLength = 1 ∨
      (b.lib.i2cReadByte (b.dataLength == 1)).2.internalTimeoutOccurred = false
  else
    match rx with
    | some byte => b.CmdProper byte
    | none => b.cmdTimedOut cmdTimeoutMs → b.state ≠ .getAddr ∧ b.state ≠ .getData

def Proper (cmdTimeoutMs : ℤ) (b : Bridge) : Action → Prop
  | .i2cService a => b.returnResponse = false → (b.meet a).ProcessProper cmdTimeoutMs a.rx
  | .uartCheckErrors _ _ => True

instance (byte : UInt8) : Decidable (b.CmdProper byte) := by
  unfold CmdProper
  rcases b.state with ⟨⟩ <;> dsimp only <;> infer_instance

instance (rx : Option UInt8) : Decidable (b.ProcessProper cmdTimeoutMs rx) := by
  unfold ProcessProper
  rcases rx with _ | byte <;> dsimp only <;> infer_instance

instance (b : Bridge) (a : Action) : Decidable (b.Proper cmdTimeoutMs a) := by
  rcases a with ⟨⟩ <;> dsimp only [Proper] <;> infer_instance

theorem sub_one_eq_zero (n : UInt8) : (n - 1 == 0) = true ↔ n = 1 := by
  rw [beq_iff_eq]
  constructor
  · intro h
    have hn : n - 1 + 1 = 1 := by rw [h]; rfl
    rwa [UInt8.sub_add_cancel] at hn
  · rintro rfl
    rfl

theorem countDown_state (b : Bridge) :
    b.countDown.state = if b.dataLength = 1 then .idle else b.state :=
  if_congr (sub_one_eq_zero b.dataLength) rfl rfl

/-! #### What a command byte does -/

section ParseCmd

variable (byte : UInt8)

theorem parseCmd_start (h : b.state = .idle) (hb : byte = cmdStart) :
    (b.parseCmd byte).state = .getAddr ∧ (b.parseCmd byte).lib = b.lib.i2cStart ∧
      (b.parseCmd byte).atByte = b.atByte := by
  subst hb
  unfold parseCmd
  rw [h]
  exact ⟨rfl, rfl, rfl⟩

theorem parseCmd_other (h : b.state = .idle) (hb : byte ≠ cmdStart) :
    (b.parseCmd byte).state = .idle ∧ (b.parseCmd byte).atByte = b.atByte := by
  unfold parseCmd
  rw [h]
  dsimp only
  split_ifs
  · exact ⟨rfl, rfl⟩
  · exact ⟨rfl, rfl⟩
  · exact ⟨h, rfl⟩

theorem parseCmd_getAddr (h : b.state = .getAddr) :
    (b.parseCmd byte).state = .getLen ∧
      (b.parseCmd byte).atByte = b.lib.started :: b.atByte := by
  unfold parseCmd
  rw [h]
  exact ⟨rfl, checkWrite_atByte _ _ _⟩

theorem parseCmd_getLen (h : b.state = .getLen) :
    (b.parseCmd byte).state = (if byte > 0 then .getData else .idle) ∧
      (b.parseCmd byte).lib = b.lib ∧ (b.parseCmd byte).atByte = b.atByte := by
  unfold parseCmd
  rw [h]
  exact ⟨rfl, rfl, rfl⟩

theorem parseCmd_getData (h : b.state = .getData) (hdir : b.dataDirIsRead = false) :
    (b.parseCmd byte).state = (if b.dataLength = 1 then .idle else .getData) ∧
      (b.parseCmd byte).lib.started = (b.lib.i2cWriteByte byte).2.started ∧
      (b.parseCmd byte).atByte = b.lib.started :: b.atByte := by
  have hparse : b.parseCmd byte = ((b.writeByte byte).checkWrite (b.lib.i2cWriteByte byte).1
      errI2cNackData).countDown := by
    unfold parseCmd
    rw [h]
    dsimp only
    rw [hdir]
    rfl
  rw [hparse, countDown_state, checkWrite_dataLength, checkWrite_state]
  refine ⟨?_, checkWrite_lib_started _ _ _, checkWrite_atByte _ _ _⟩
  change (if b.dataLength = 1 then I2cState.idle else b.state) = _
  rw [h]

end ParseCmd

theorem i2cRead_state (b : Bridge) :
    b.i2cRead.state = if b.dataLength = 1 then .idle else b.state := by
  have hstate : b.i2cRead.state = b.countDown.state := by
    unfold i2cRead
    dsimp only
    split_ifs <;> rfl
  rw [hstate, countDown_state]

theorem i2cRead_lib_started (b : Bridge) :
    b.i2cRead.lib.started = (b.lib.i2cReadByte (b.dataLength == 1)).2.started := by
  unfold i2cRead
  dsimp only
  split_ifs <;> rfl

theorem i2cRead_atByte (b : Bridge) : b.i2cRead.atByte = b.lib.started :: b.atByte := by
  unfold i2cRead
  dsimp only
  split_ifs <;> rfl

/-! #### The joint invariant -/

/-- The library's own invariant, and that of the parser. -/
structure Sound (b : Bridge) : Prop where
  ready : b.Ready
  consistent : b.lib.Consistent

theorem ready_of_state (h : b.state ≠ .getAddr) (h' : b.state ≠ .getData) : b.Ready :=
  fun hs => (hs.elim h h').elim

theorem ready_iff_started (h : b.state = .getAddr ∨ b.state = .getData) :
    b.Ready ↔ b.lib.started = true := ⟨fun hr => hr h, fun hs _ => hs⟩

namespace Sound

theorem parseCmd_iff (h : b.Sound) (hread : ¬(b.dataDirIsRead ∧ b.state = .getData))
    (byte : UInt8) : (b.parseCmd byte).Ready ↔ b.CmdProper byte := by
  unfold CmdProper
  rcases hstate : b.state with _ | _ | _ | _
  · dsimp only
    by_cases hb : byte = cmdStart
    · obtain ⟨hs, hlib, -⟩ := parseCmd_start byte hstate hb
      rw [ready_iff_started (.inl hs), hlib, h.consistent.i2cStart_started_iff]
      exact ⟨fun hi _ => hi, fun hi => hi hb⟩
    · obtain ⟨hs, -⟩ := parseCmd_other byte hstate hb
      refine iff_of_true (ready_of_state ?_ ?_) fun he => absurd he hb <;> rw [hs] <;> decide
  · obtain ⟨hs, -⟩ := parseCmd_getAddr byte hstate
    refine iff_of_true (ready_of_state ?_ ?_) trivial <;> rw [hs] <;> decide
  · obtain ⟨hs, hlib, -⟩ := parseCmd_getLen byte hstate
    dsimp only
    by_cases hb : byte > 0
    · rw [if_pos hb] at hs
      rw [ready_iff_started (.inr hs), hlib]
      exact ⟨fun hl _ => hl, fun hl => hl hb⟩
    · rw [if_neg hb] at hs
      refine iff_of_true (ready_of_state ?_ ?_) fun hp => absurd hp hb <;> rw [hs] <;> decide
  · have hdir : b.dataDirIsRead = false := Bool.eq_false_iff.mpr fun hd => hread ⟨hd, hstate⟩
    obtain ⟨hs, hlib, -⟩ := parseCmd_getData byte hstate hdir
    have hstarted := h.ready (.inr hstate)
    dsimp only
    by_cases hlen : b.dataLength = 1
    · rw [if_pos hlen] at hs
      refine iff_of_true (ready_of_state ?_ ?_) (.inl hlen) <;> rw [hs] <;> decide
    · rw [if_neg hlen] at hs
      rw [ready_iff_started (.inr hs), hlib]
      rcases Master.i2cWriteByte_outcome b.lib byte with ⟨hi, hn, hk⟩ | ⟨hn, hk⟩
      · exact iff_of_true (hk.trans hstarted) (.inr ⟨hn, hi⟩)
      · refine iff_of_false (Bool.eq_false_iff.mp hk) ?_
        rintro (hl | ⟨hn', hi'⟩)
        · exact hlen hl
        · rw [hi', hn'] at hn
          exact hn.elim Bool.false_ne_true Bool.false_ne_true

theorem i2cRead_iff (h : b.Sound) (hread : b.state = .getData) :
    b.i2cRead.Ready ↔ b.dataLength = 1 ∨
      (b.lib.i2cReadByte (b.dataLength == 1)).2.internalTimeoutOccurred = false := by
  have hs := i2cRead_state b
  by_cases hlen : b.dataLength = 1
  · rw [if_pos hlen] at hs
    refine iff_of_true (ready_of_state ?_ ?_) (.inl hlen) <;> rw [hs] <;> decide
  · rw [if_neg hlen, hread] at hs
    rw [ready_iff_started (.inr hs), i2cRead_lib_started]
    rcases Master.i2cReadByte_outcome b.lib (b.dataLength == 1) with ⟨hi, hk⟩ | ⟨hi, hk⟩
    · exact iff_of_true (hk.trans (h.ready (.inr hread))) (.inr hi)
    · rw [hi, hk]
      exact iff_of_false Bool.false_ne_true fun hf => hf.elim hlen (by decide)

theorem process_iff (h : b.Sound) :
    (b.process cmdTimeoutMs rx).Ready ↔ b.ProcessProper cmdTimeoutMs rx := by
  unfold ProcessProper
  by_cases hread : b.dataDirIsRead ∧ b.state = .getData
  · rw [process_of_read hread, if_pos hread]
    exact h.i2cRead_iff hread.2
  rw [if_neg hread]
  rcases rx with _ | byte
  · rw [process_of_none hread]
    dsimp only
    by_cases ht : b.cmdTimedOut cmdTimeoutMs
    · rw [if_pos ht]
      constructor
      · intro hr _
        have hstop : ¬b.lib.i2cStop.started = true :=
          Bool.eq_false_iff.mp h.consistent.i2cStop_started
        exact ⟨fun hs => hstop (hr (.inl hs)), fun hs => hstop (hr (.inr hs))⟩
      · intro hs
        exact ready_of_state (hs ht).1 (hs ht).2
    · rw [if_neg ht]
      exact iff_of_true h.ready fun hf => absurd hf ht
  · rw [process_of_byte hread]
    exact h.parseCmd_iff hread byte

theorem meet (h : b.Sound) (a : Service) : (b.meet a).Sound := ⟨h.ready, h.consistent⟩

end Sound

theorem parseCmd_consistent (h : b.lib.Consistent) (byte : UInt8) :
    (b.parseCmd byte).lib.Consistent := by
  have hcheck : ∀ (c : Bridge) (nack : Bool) (error : UInt8), c.lib.Consistent →
      (c.checkWrite nack error).lib.Consistent := by
    intro c nack error hc
    unfold checkWrite
    split_ifs <;> exact hc
  unfold parseCmd
  rcases b.state with _ | _ | _ | _ <;> dsimp only
  · split_ifs
    · exact h
    · exact h.i2cStart
    · exact h.i2cStop
    · exact h
  · exact hcheck _ _ _ (.i2cWriteByte _ byte)
  · exact h
  · split_ifs
    · exact h
    · exact hcheck _ _ _ (.i2cWriteByte _ byte)

theorem i2cRead_consistent (b : Bridge) : b.i2cRead.lib.Consistent := by
  have hbyte : (b.lib.i2cReadByte (b.dataLength == 1)).2.Consistent := .i2cReadByte _ _
  unfold i2cRead
  dsimp only
  split_ifs <;> exact hbyte

theorem process_consistent (h : b.lib.Consistent) :
    (b.process cmdTimeoutMs rx).lib.Consistent := by
  by_cases hread : b.dataDirIsRead ∧ b.state = .getData
  · rw [process_of_read hread]
    exact i2cRead_consistent b
  · rcases rx with _ | byte
    · rw [process_of_none hread]
      split_ifs
      · exact h.i2cStop
      · exact h
    · rw [process_of_byte hread]
      exact parseCmd_consistent h byte

/-- A parser that is ready transfers bytes only in a transaction. -/
theorem parseCmd_atByte (h : b.Ready) (hb : false ∉ b.atByte)
    (hread : ¬(b.dataDirIsRead ∧ b.state = .getData)) (byte : UInt8) :
    false ∉ (b.parseCmd byte).atByte := by
  have hcons : b.lib.started = true → false ∉ b.lib.started :: b.atByte := by
    intro hs
    rw [hs, List.mem_cons, not_or]
    exact ⟨Bool.false_ne_true, hb⟩
  rcases hstate : b.state with _ | _ | _ | _
  · by_cases hstart : byte = cmdStart
    · rwa [(parseCmd_start byte hstate hstart).2.2]
    · rwa [(parseCmd_other byte hstate hstart).2]
  · rw [(parseCmd_getAddr byte hstate).2]
    exact hcons (h (.inl hstate))
  · rwa [(parseCmd_getLen byte hstate).2.2]
  · have hdir : b.dataDirIsRead = false := Bool.eq_false_iff.mpr fun hd => hread ⟨hd, hstate⟩
    rw [(parseCmd_getData byte hstate hdir).2.2]
    exact hcons (h (.inr hstate))

theorem process_atByte (h : b.Ready) (hb : false ∉ b.atByte) :
    false ∉ (b.process cmdTimeoutMs rx).atByte := by
  by_cases hread : b.dataDirIsRead ∧ b.state = .getData
  · rw [process_of_read hread, i2cRead_atByte, h (.inr hread.2), List.mem_cons, not_or]
    exact ⟨Bool.false_ne_true, hb⟩
  · rcases rx with _ | byte
    · rw [process_of_none hread]
      split_ifs <;> exact hb
    · rw [process_of_byte hread]
      exact parseCmd_atByte h hb hread byte

namespace Sound

theorem i2cService_iff (h : b.Sound) (a : Service) :
    (b.i2cService cmdTimeoutMs a).Ready ↔ b.Proper cmdTimeoutMs (.i2cService a) := by
  rw [i2cService, Ready, respond_state, respond_lib]
  rcases hr : b.returnResponse with _ | _
  · rw [if_neg Bool.false_ne_true]
    exact (h.meet a).process_iff.trans ⟨fun hp _ => hp, fun hp => hp hr⟩
  · rw [if_pos rfl]
    refine iff_of_true (h.meet a).ready fun hf => ?_
    rw [hr] at hf
    cases hf

theorem i2cService_consistent (h : b.lib.Consistent) (a : Service) :
    (b.i2cService cmdTimeoutMs a).lib.Consistent := by
  rw [i2cService, respond_lib]
  split_ifs
  · exact h
  · exact process_consistent (b := b.meet a) h

theorem i2cService_atByte (h : b.Ready) (hb : false ∉ b.atByte) (a : Service) :
    false ∉ (b.i2cService cmdTimeoutMs a).atByte := by
  rw [i2cService, respond_atByte]
  split_ifs
  · exact hb
  · exact process_atByte (b := b.meet a) h hb

theorem step {t : Bridge} {a : Action} (h : b.Sound ∧ false ∉ b.atByte)
    (hp : b.Proper cmdTimeoutMs a) (hs : b.step cmdTimeoutMs a = some t) :
    t.Sound ∧ false ∉ t.atByte := by
  obtain ⟨hsound, hb⟩ := h
  cases a with
  | i2cService a =>
    cases hs
    exact ⟨⟨(hsound.i2cService_iff a).mpr hp, i2cService_consistent hsound.consistent a⟩,
      i2cService_atByte hsound.ready hb a⟩
  | uartCheckErrors bufferFull framingError =>
    cases hs
    refine ⟨⟨?_, ?_⟩, ?_⟩ <;> cases bufferFull <;> cases framingError
    all_goals first | exact hsound.ready | exact hsound.consistent | exact hb

end Sound

/-! #### A parser that is not ready -/

def services (cmdTimeoutMs : ℤ) (b : Bridge) (as : List Service) : Bridge :=
  as.foldl (fun b a => b.i2cService cmdTimeoutMs a) b

/-- The next command byte is transferred although there is no transaction. -/
theorem atByte_of_not_ready (h : ¬b.Ready) (hr : b.returnResponse = false) (byte : UInt8) :
    false ∈ (b.i2cService cmdTimeoutMs ⟨[], [], some byte, true⟩).atByte := by
  obtain ⟨hstate, hs⟩ := Classical.not_imp.mp h
  have hstarted : b.lib.started = false := Bool.eq_false_iff.mpr hs
  let m := b.meet ⟨[], [], some byte, true⟩
  have hm : m.lib.started = false := hstarted
  rw [i2cService, respond_atByte, if_neg (Bool.eq_false_iff.mp hr)]
  change false ∈ (m.process cmdTimeoutMs (some byte)).atByte
  by_cases hread : m.dataDirIsRead ∧ m.state = .getData
  · rw [process_of_read hread, i2cRead_atByte, hm]
    exact List.mem_cons_self
  · rw [process_of_byte hread]
    change false ∈ (m.parseCmd byte).atByte
    rcases hstate with haddr | hdata
    · rw [(parseCmd_getAddr (b := m) byte haddr).2, hm]
      exact List.mem_cons_self
    · have hdir : m.dataDirIsRead = false := Bool.eq_false_iff.mpr fun hd => hread ⟨hd, hdata⟩
      rw [(parseCmd_getData (b := m) byte hdata hdir).2.2, hm]
      exact List.mem_cons_self

/-- A response that waits is sent first. -/
theorem exists_atByte_of_not_ready (h : ¬b.Ready) :
    ∃ as, false ∈ (b.services cmdTimeoutMs as).atByte := by
  rcases hr : b.returnResponse with _ | _
  · exact ⟨[⟨[], [], some 0, true⟩], atByte_of_not_ready h hr 0⟩
  · have hsend : b.i2cService cmdTimeoutMs ⟨[], [], none, true⟩ =
        { b.meet ⟨[], [], none, true⟩ with returnResponse := false } := by
      rw [i2cService, if_pos hr, respond]
      exact if_pos (by change (b.returnResponse && true) = true; rw [hr]; rfl)
    have hnot : ¬(b.i2cService cmdTimeoutMs ⟨[], [], none, true⟩).Ready := by
      rw [hsend]
      exact h
    refine ⟨[⟨[], [], none, true⟩, ⟨[], [], some 0, true⟩], ?_⟩
    exact atByte_of_not_ready hnot (by rw [hsend]) 0

/-- As long as every call is proper, bytes are transferred only in a transaction; and after any
other call there may be one that is not. -/
theorem run_atByte {slaveScl slaveSda : Bool} {timeoutMs : UInt16}
    (hr : Run (step cmdTimeoutMs) (Proper cmdTimeoutMs)
      (start slaveScl slaveSda timeoutMs) b) :
    false ∉ b.atByte ∧ ∀ a, ¬b.Proper cmdTimeoutMs (.i2cService a) →
      ∃ as, false ∈ ((b.i2cService cmdTimeoutMs a).services cmdTimeoutMs as).atByte := by
  have hstart : (start slaveScl slaveSda timeoutMs).Sound ∧
      false ∉ (start slaveScl slaveSda timeoutMs).atByte :=
    ⟨⟨ready_of_state I2cState.noConfusion I2cState.noConfusion, .of_started rfl⟩,
      List.not_mem_nil⟩
  obtain ⟨hsound, hb⟩ := hr.invariant hstart fun _ _ _ h hp hs => Sound.step h hp hs
  refine ⟨hb, fun a hp => ?_⟩
  rw [← hsound.i2cService_iff a] at hp
  exact exists_atByte_of_not_ready hp

/-- An address that is not acknowledged, with no data to follow. -/
theorem run_atByte_nack :
    ∃ b : Bridge, (false ∉ b.atByte ∧ ∀ a, ¬b.Proper 500 (.i2cService a) →
      ∃ as, false ∈ ((b.i2cService 500 a).services 500 as).atByte) ∧
      b.atByte = [true] ∧ b.lib.started = false := by
  have hrun : (exec (step 500) (Proper 500) (start false false 10)
      [.i2cService ⟨[], [], some cmdStart, true⟩, .i2cService ⟨[], [], some 7, true⟩,
        .i2cService ⟨[], [], some 0, true⟩]).map (fun b => (b.atByte, b.lib.started)) =
          some ([true], false) := by
    decide +kernel
  obtain ⟨b, hr, hv⟩ := exists_run_of_exec hrun
  simp only [Prod.mk.injEq] at hv
  exact ⟨b, run_atByte hr, hv⟩

/-- The address is not acknowledged, which stops the bus, and a data byte follows. -/
theorem not_run_atByte_of_nack :
    ¬∀ b : Bridge, Run (step 500) (fun _ _ => True) (start false false 10) b →
      false ∉ b.atByte := by
  intro hall
  have hrun : (exec (step 500) (fun _ _ => True) (start false false 10)
      [.i2cService ⟨[], [], some cmdStart, true⟩, .i2cService ⟨[], [], some 6, true⟩,
        .i2cService ⟨[], [], some 1, true⟩, .i2cService ⟨[], [], some 0, true⟩]).map
          (fun b => b.atByte) = some [false, true] := by
    decide +kernel
  obtain ⟨b, hr, hv⟩ := exists_run_of_exec hrun
  have hnot := hall b hr
  rw [hv] at hnot
  exact hnot List.mem_cons_self

end Bridge
end WixelSdk.SerialI2c
