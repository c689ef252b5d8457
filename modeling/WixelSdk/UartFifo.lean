import WixelSdk.Uart
import Mathlib.Tactic.SplitIfs

/-!
# The UART buffers are lossless under any interrupt timing

Each direction has an invariant of its own. For the TX ring it counts the bytes of the present call
that are not in the ring yet, so that no step of a call changes what has been sent, and says where
the TX interrupt may be off. For the RX ring it says which byte a call that has read one returns.
-/

namespace WixelSdk.Uart
open Transition

/-! ### The history -/

namespace History

variable (h es : History)

@[simp] theorem sent_append : sent (h ++ es) = h.sent ++ es.sent := List.flatMap_append

@[simp] theorem transmitted_append : transmitted (h ++ es) = h.transmitted ++ es.transmitted :=
  List.filterMap_append

@[simp] theorem accepted_append : accepted (h ++ es) = h.accepted ++ es.accepted :=
  List.filterMap_append

@[simp] theorem returned_append : returned (h ++ es) = h.returned ++ es.returned :=
  List.filterMap_append

theorem filterMap_single {β : Type} (f : UartEvent → Option β) (e : UartEvent) :
    [e].filterMap f = (f e).toList := by
  cases he : f e <;> simp [he]

@[simp] theorem sent_single (e : UartEvent) : sent [e] = sentBytes e := List.flatMap_singleton _ _

@[simp] theorem transmitted_single (e : UartEvent) :
    transmitted [e] = (transmitted? e).toList := filterMap_single _ _

@[simp] theorem accepted_single (e : UartEvent) : accepted [e] = (accepted? e).toList :=
  filterMap_single _ _

@[simp] theorem returned_single (e : UartEvent) : returned [e] = (returned? e).toList :=
  filterMap_single _ _

theorem overflowed_concat (e : UartEvent) :
    overflowed (h ++ [e]) = overflow h.overflowed e := by
  rw [overflowed, List.foldl_append]
  rfl

end History

/-! ### Sending -/

structure TxLossless (u : Port) (m : MainLoop) (promised : ℕ) (h : History) : Prop where
  bytes : h.transmitted ++ u.txBytes ++ m.unsent = h.sent
  room : (u.uartTxBufferMainLoopIndex - u.uartTxBufferInterruptIndex).toNat + m.unsent.length +
    promised ≤ 255
  stored : ∀ byte buffer, m = .stored byte buffer →
    u.uartTxBuffer u.uartTxBufferMainLoopIndex = byte
  enabled : u.uartTxBufferInterruptIndex ≠ u.uartTxBufferMainLoopIndex →
    u.bvUtxnie = true ∨ ∃ buffer, m = .advanced buffer

variable {u : Port} {promised : ℕ} {h : History} {byte : UInt8} {buffer : List UInt8}

namespace TxLossless

/-- Only between the index update and the IEN2 write may the TX interrupt be off. -/
theorem on {m : MainLoop} (ht : TxLossless u m promised h) (hm : ∀ buffer, m ≠ .advanced buffer)
    (hne : u.uartTxBufferInterruptIndex ≠ u.uartTxBufferMainLoopIndex) : u.bvUtxnie = true :=
  (ht.enabled hne).resolve_right fun ⟨buffer, he⟩ => hm buffer he

theorem startSend (ht : TxLossless u .idle promised h) (hlen : buffer.length ≤ promised) :
    TxLossless u (.sending buffer) (promised - buffer.length) (h ++ [.sent buffer]) where
  bytes := by
    have hb := ht.bytes
    simp only [MainLoop.unsent, List.append_nil] at hb
    change History.transmitted (h ++ _) ++ u.txBytes ++ buffer = History.sent (h ++ _)
    rw [History.transmitted_append, History.sent_append, ← hb]
    simp [History.transmitted?, History.sentBytes]
  room := by
    have hr := ht.room
    simp only [MainLoop.unsent, List.length_nil] at hr ⊢
    omega
  stored _ _ hm := by cases hm
  enabled hne := Or.inl (ht.on (by simp) hne)

theorem store (ht : TxLossless u (.sending (byte :: buffer)) promised h) :
    TxLossless (u.storeTxByte byte) (.stored byte buffer) promised h where
  bytes := by
    have hb : (u.storeTxByte byte).txBytes = u.txBytes := ByteRing.contents_update _ _
    rw [hb]
    exact ht.bytes
  room := ht.room
  stored b buf hm := by
    obtain ⟨rfl, -⟩ := MainLoop.stored.inj hm
    exact Function.update_self _ _ _
  enabled hne := Or.inl (ht.on (by simp) hne)

theorem advance (ht : TxLossless u (.stored byte buffer) promised h) :
    TxLossless u.advanceTxMainLoopIndex (.advanced buffer) promised h := by
  have hr := ht.room
  simp only [MainLoop.unsent, List.length_cons] at hr
  have hsum := ByteRing.toNat_used_add_free u.uartTxBufferInterruptIndex u.uartTxBufferMainLoopIndex
  have hfree : u.uartTxBufferInterruptIndex - u.uartTxBufferMainLoopIndex - 1 ≠ 0 := by
    intro he
    rw [he, UInt8.toNat_zero] at hsum
    omega
  have hb : u.advanceTxMainLoopIndex.txBytes = u.txBytes ++ [byte] := by
    rw [← ht.stored byte buffer rfl]
    exact ByteRing.contents_succ _ hfree
  refine ⟨?_, ?_, ?_, ?_⟩
  · have hold := ht.bytes
    simp only [MainLoop.unsent] at hold ⊢
    rw [hb, ← hold]
    simp
  · have hlen := congrArg List.length hb
    rw [List.length_append] at hlen
    simp only [Port.txBytes, ByteRing.length_contents, List.length_singleton,
      MainLoop.unsent] at hlen ⊢
    omega
  · intro _ _ hm
    cases hm
  · exact fun _ => Or.inr ⟨buffer, rfl⟩

theorem enable (ht : TxLossless u (.advanced buffer) promised h) :
    TxLossless u.enableTxInterrupt (.sending buffer) promised h where
  bytes := ht.bytes
  room := ht.room
  stored _ _ hm := by cases hm
  enabled _ := Or.inl rfl

theorem isrUtx {m : MainLoop} (ht : TxLossless u m promised h) :
    TxLossless u.isrUtx.1 m promised
      (h ++ (u.isrUtx.2.map UartEvent.transmitted).toList) := by
  by_cases hne : u.uartTxBufferInterruptIndex ≠ u.uartTxBufferMainLoopIndex
  · have hb : u.txBytes = u.uartTxBuffer u.uartTxBufferInterruptIndex :: u.isrUtx.1.txBytes := by
      rw [Port.isrUtx, if_pos hne]
      exact ByteRing.contents_cons _ hne
    have hlen := congrArg List.length hb
    have hr := ht.room
    have hold := ht.bytes
    have hen := ht.enabled hne
    rw [hb] at hold
    rw [Port.isrUtx, if_pos hne] at hlen ⊢
    simp only [Port.txBytes, ByteRing.length_contents, List.length_cons] at hlen
    refine ⟨?_, by dsimp only; omega, ht.stored, fun _ => hen⟩
    rw [History.transmitted_append, History.sent_append, ← hold, Port.isrUtx, if_pos hne]
    simp [History.transmitted?, History.sentBytes, Port.txBytes]
  · rw [Port.isrUtx, if_neg hne]
    refine ⟨?_, ht.room, ht.stored, fun hne' => absurd hne' hne⟩
    simp only [Option.map_none, Option.toList_none, List.append_nil]
    exact ht.bytes

theorem record {m : MainLoop} (ht : TxLossless u m promised h) {e : UartEvent}
    (hsent : History.sentBytes e = []) (htr : History.transmitted? e = none) :
    TxLossless u m promised (h ++ [e]) where
  bytes := by
    rw [History.transmitted_append, History.sent_append, ← ht.bytes]
    simp [hsent, htr]
  room := ht.room
  stored := ht.stored
  enabled := ht.enabled

end TxLossless

/-! ### Receiving -/

structure RxLossless (u : Port) (m : MainLoop) (promised : ℕ) (h : History) : Prop where
  bytes : h.returned ++ u.rxBytes = h.accepted
  room : promised + m.toReturn ≤ u.uartNRxAvailable.toNat
  receiving : ∀ byte, m = .receiving byte → u.currentRxByte = byte
  full : u.uartNRxBufferFullOccurred = h.overflowed

theorem rxBufferFreeBytes_ne_zero (u : Port) :
    u.rxBufferFreeBytes ≠ 0 ↔ u.uartNRxAvailable.toNat < 255 := by
  have hsum := ByteRing.toNat_used_add_free u.uartRxBufferMainLoopIndex u.uartRxBufferInterruptIndex
  rw [ne_eq, ← UInt8.toNat_inj, UInt8.toNat_zero]
  unfold Port.rxBufferFreeBytes Port.uartNRxAvailable
  omega

namespace RxLossless

theorem start (hr : RxLossless u .idle promised h) (hp : 1 ≤ promised) :
    RxLossless u (.receiving u.currentRxByte) (promised - 1) h where
  bytes := hr.bytes
  room := by
    have hroom := hr.room
    simp only [MainLoop.toReturn] at hroom ⊢
    omega
  receiving byte hm := MainLoop.receiving.inj hm
  full := hr.full

theorem finish (hr : RxLossless u (.receiving byte) promised h) :
    RxLossless u.advanceRxMainLoopIndex .idle promised (h ++ [.returned byte]) := by
  have hroom := hr.room
  simp only [MainLoop.toReturn] at hroom
  have hne : u.uartRxBufferMainLoopIndex ≠ u.uartRxBufferInterruptIndex := by
    intro he
    rw [Port.uartNRxAvailable, he, UInt8.sub_self, UInt8.toNat_zero] at hroom
    omega
  have hb : u.rxBytes = byte :: u.advanceRxMainLoopIndex.rxBytes := by
    rw [← hr.receiving byte rfl]
    exact ByteRing.contents_cons _ hne
  refine ⟨?_, ?_, ?_, ?_⟩
  · rw [History.returned_append, History.accepted_append, ← hr.bytes, hb]
    simp [History.returned?, History.accepted?]
  · have hlen := congrArg List.length hb
    rw [List.length_cons] at hlen
    simp only [Port.rxBytes, ByteRing.length_contents, Port.uartNRxAvailable,
      MainLoop.toReturn] at hlen hroom ⊢
    omega
  · intro _ hm
    cases hm
  · exact hr.full.trans (History.overflowed_concat h (.returned byte)).symm

theorem clear {m : MainLoop} (hr : RxLossless u m promised h) :
    RxLossless { u with uartNRxBufferFullOccurred := false } m promised (h ++ [.cleared]) where
  bytes := by
    rw [History.returned_append, History.accepted_append, ← hr.bytes]
    simp [History.returned?, History.accepted?, Port.rxBytes]
  room := hr.room
  receiving := hr.receiving
  full := (History.overflowed_concat h .cleared).symm

/-- Storing a byte at the interrupt's index leaves the byte that is being returned. -/
theorem accept {m : MainLoop} (hr : RxLossless u m promised h) {csr undbuf : UInt8}
    (hgood : Port.noErrors csr) (hroom : u.uartNRxAvailable.toNat < 255) :
    RxLossless (u.isrUrx csr undbuf) m promised
      (h ++ [.arrived csr undbuf u.uartNRxAvailable.toNat]) := by
  have hfree := (rxBufferFreeBytes_ne_zero u).mpr hroom
  have hisr : u.isrUrx csr undbuf = { u with
      urxnif := false
      uartRxBuffer := Function.update u.uartRxBuffer u.uartRxBufferInterruptIndex undbuf
      uartRxBufferInterruptIndex := u.uartRxBufferInterruptIndex + 1 } := by
    rw [Port.isrUrx, if_pos hgood, if_pos hfree]
  have hb : (u.isrUrx csr undbuf).rxBytes = u.rxBytes ++ [undbuf] := by
    rw [hisr]
    have hsucc := ByteRing.contents_succ
      (Function.update u.uartRxBuffer u.uartRxBufferInterruptIndex undbuf) hfree
    rwa [ByteRing.contents_update, Function.update_self] at hsucc
  refine ⟨?_, ?_, ?_, ?_⟩
  · rw [History.returned_append, History.accepted_append, ← hr.bytes, hb]
    simp [History.returned?, History.accepted?, hgood, hroom]
  · have hlen := congrArg List.length hb
    have hold := hr.room
    rw [List.length_append] at hlen
    simp only [Port.rxBytes, ByteRing.length_contents, List.length_singleton] at hlen
    simp only [Port.uartNRxAvailable] at hold ⊢
    omega
  · intro byte hm
    have hold := hr.room
    rw [hm] at hold
    have hne : u.uartRxBufferMainLoopIndex ≠ u.uartRxBufferInterruptIndex := by
      intro he
      rw [Port.uartNRxAvailable, he, UInt8.sub_self, UInt8.toNat_zero, MainLoop.toReturn] at hold
      omega
    rw [hisr, ← hr.receiving byte hm]
    exact Function.update_of_ne hne _ _
  · rw [hisr, History.overflowed_concat, ← hr.full]
    simp [History.overflow, hroom]

theorem drop {m : MainLoop} (hr : RxLossless u m promised h) {csr undbuf : UInt8}
    (hdrop : ¬ (Port.noErrors csr ∧ u.uartNRxAvailable.toNat < 255)) :
    RxLossless (u.isrUrx csr undbuf) m promised
      (h ++ [.arrived csr undbuf u.uartNRxAvailable.toNat]) := by
  have haccepted : History.accepted [.arrived csr undbuf u.uartNRxAvailable.toNat] = [] := by
    rw [History.accepted_single, History.accepted?, if_neg hdrop]
    rfl
  have hbytes :
      History.returned (h ++ [.arrived csr undbuf u.uartNRxAvailable.toNat]) ++ u.rxBytes =
        History.accepted (h ++ [.arrived csr undbuf u.uartNRxAvailable.toNat]) := by
    rw [History.accepted_append, haccepted, History.returned_append, ← hr.bytes]
    simp [History.returned?]
  by_cases hgood : Port.noErrors csr
  · have hfull : ¬ u.rxBufferFreeBytes ≠ 0 :=
      (rxBufferFreeBytes_ne_zero u).not.mpr fun hlt => hdrop ⟨hgood, hlt⟩
    have hlt : ¬ u.uartNRxAvailable.toNat < 255 := fun hlt => hdrop ⟨hgood, hlt⟩
    rw [Port.isrUrx, if_pos hgood, if_neg hfull]
    refine ⟨hbytes, hr.room, hr.receiving, ?_⟩
    rw [History.overflowed_concat]
    simp [History.overflow, hgood, hlt]
  · rw [Port.isrUrx, if_neg hgood]
    refine ⟨hbytes, hr.room, hr.receiving, ?_⟩
    rw [History.overflowed_concat, ← hr.full]
    simp [History.overflow, hgood]

theorem isrUrx {m : MainLoop} (hr : RxLossless u m promised h) (csr undbuf : UInt8) :
    RxLossless (u.isrUrx csr undbuf) m promised
      (h ++ [.arrived csr undbuf u.uartNRxAvailable.toNat]) := by
  by_cases hok : Port.noErrors csr ∧ u.uartNRxAvailable.toNat < 255
  · exact hr.accept hok.1 hok.2
  · exact hr.drop hok

theorem record {m : MainLoop} (hr : RxLossless u m promised h) {e : UartEvent}
    (hacc : History.accepted? e = none) (hret : History.returned? e = none)
    (hover : ∀ dropped, History.overflow dropped e = dropped) :
    RxLossless u m promised (h ++ [e]) where
  bytes := by
    rw [History.returned_append, History.accepted_append, ← hr.bytes]
    simp [hacc, hret]
  room := hr.room
  receiving := hr.receiving
  full := by rw [hr.full, History.overflowed_concat, hover]

end RxLossless

/-! ### Runs -/

namespace Station

variable {s t : Station} {a : Action}

structure Invariant (s : Station) : Prop where
  tx : TxLossless s.uart s.mainLoop s.txPromised s.history
  rx : RxLossless s.uart s.mainLoop s.rxPromised s.history
  urxnie : s.uart.urxnie = true

theorem invariant_init : init.Invariant where
  tx := ⟨rfl, by decide, fun _ _ hm => (by cases hm), fun hne => absurd rfl hne⟩
  rx := ⟨rfl, by decide, fun _ hm => (by cases hm), rfl⟩
  urxnie := rfl

theorem call_eq_some {u : Station} (hs : s.call u = some t) : s.mainLoop = .idle ∧ t = u := by
  unfold call at hs
  split_ifs at hs with hidle
  exact ⟨hidle, (Option.some.inj hs).symm⟩

theorem invariant_startSend (h : s.Invariant) (hidle : s.mainLoop = .idle) {buffer : List UInt8}
    (hlen : buffer.length ≤ s.txPromised) : (s.startSend buffer).Invariant := by
  obtain ⟨ht, hr, hie⟩ := h
  rw [hidle] at ht hr
  refine ⟨ht.startSend hlen, ?_, hie⟩
  have hr' := hr.record (e := .sent buffer) rfl rfl fun _ => rfl
  exact ⟨hr'.bytes, hr'.room, fun _ hm => (by cases hm), hr'.full⟩

/-- The next step of a call, by the place of the main loop. -/
theorem invariant_next (h : s.Invariant) (hs : s.next = some t) : t.Invariant := by
  obtain ⟨u, m, tp, rp, hist⟩ := s
  obtain ⟨ht, hr, hie⟩ := h
  cases m with
  | idle => cases hs
  | sending buffer =>
      cases buffer with
      | nil =>
          obtain rfl := Option.some.inj hs
          exact ⟨⟨ht.bytes, ht.room, fun _ _ hm => (by cases hm),
            fun hne => Or.inl (ht.on (by simp) hne)⟩,
            ⟨hr.bytes, hr.room, fun _ hm => (by cases hm), hr.full⟩, hie⟩
      | cons byte buffer =>
          obtain rfl := Option.some.inj hs
          exact ⟨ht.store, ⟨hr.bytes, hr.room, fun _ hm => (by cases hm), hr.full⟩, hie⟩
  | stored byte buffer =>
      obtain rfl := Option.some.inj hs
      exact ⟨ht.advance, ⟨hr.bytes, hr.room, fun _ hm => (by cases hm), hr.full⟩, hie⟩
  | advanced buffer =>
      obtain rfl := Option.some.inj hs
      exact ⟨ht.enable, ⟨hr.bytes, hr.room, fun _ hm => (by cases hm), hr.full⟩, hie⟩
  | receiving byte =>
      obtain rfl := Option.some.inj hs
      refine ⟨?_, hr.finish, hie⟩
      have ht' := ht.record (e := .returned byte) rfl rfl
      exact ⟨ht'.bytes, ht'.room, fun _ _ hm => (by cases hm),
        fun hne => Or.inl (ht'.on (by simp) hne)⟩

theorem invariant_transmit (h : s.Invariant) : s.transmit.Invariant := by
  obtain ⟨ht, hr, hie⟩ := h
  refine ⟨ht.isrUtx, ?_, ?_⟩
  · unfold transmit Port.isrUtx
    split_ifs
    · have hr' := hr.record (e := .transmitted
        (s.uart.uartTxBuffer s.uart.uartTxBufferInterruptIndex)) rfl rfl fun _ => rfl
      exact ⟨hr'.bytes, hr'.room, hr'.receiving, hr'.full⟩
    · rw [Option.map_none, Option.toList_none, List.append_nil]
      exact ⟨hr.bytes, hr.room, hr.receiving, hr.full⟩
  · unfold transmit Port.isrUtx
    split_ifs <;> exact hie

theorem invariant_receive (h : s.Invariant) (csr undbuf : UInt8) :
    (s.receive csr undbuf).Invariant := by
  obtain ⟨ht, hr, hie⟩ := h
  have ht' := ht.record (e := .arrived csr undbuf s.uart.uartNRxAvailable.toNat) rfl rfl
  refine ⟨?_, hr.isrUrx csr undbuf, ?_⟩
  · unfold receive Port.isrUrx
    split_ifs
    · exact ⟨ht'.bytes, ht'.room, ht'.stored, ht'.enabled⟩
    · exact ⟨ht'.bytes, ht'.room, ht'.stored, ht'.enabled⟩
    · exact ⟨ht'.bytes, ht'.room, ht'.stored, ht'.enabled⟩
  · unfold receive Port.isrUrx
    split_ifs <;> exact hie

theorem invariant_step (h : s.Invariant) (ha : s.Documented a) (hs : s.step a = some t) :
    t.Invariant := by
  cases a with
  | txAvailable =>
      obtain ⟨hidle, rfl⟩ := call_eq_some hs
      obtain ⟨ht, hr, hie⟩ := h
      refine ⟨⟨ht.bytes, ?_, ht.stored, ht.enabled⟩, hr, hie⟩
      have hsum := ByteRing.toNat_used_add_free s.uart.uartTxBufferInterruptIndex
        s.uart.uartTxBufferMainLoopIndex
      simp only [hidle, MainLoop.unsent, List.length_nil, Port.uartNTxAvailable]
      omega
  | txSend buffer =>
      obtain ⟨hidle, rfl⟩ := call_eq_some hs
      exact invariant_startSend h hidle ha
  | txSendByte byte =>
      obtain ⟨hidle, rfl⟩ := call_eq_some hs
      exact invariant_startSend h hidle ha
  | rxAvailable =>
      obtain ⟨hidle, rfl⟩ := call_eq_some hs
      obtain ⟨ht, hr, hie⟩ := h
      refine ⟨ht, ⟨hr.bytes, ?_, hr.receiving, hr.full⟩, hie⟩
      simp only [hidle, MainLoop.toReturn, Nat.add_zero, le_refl]
  | rxReceiveByte =>
      obtain ⟨hidle, rfl⟩ := call_eq_some hs
      obtain ⟨ht, hr, hie⟩ := h
      rw [hidle] at ht hr
      exact ⟨⟨ht.bytes, ht.room, fun _ _ hm => (by cases hm),
        fun hne => Or.inl (ht.on (by simp) hne)⟩, hr.start ha, hie⟩
  | clearRxBufferFull =>
      obtain ⟨hidle, rfl⟩ := call_eq_some hs
      obtain ⟨ht, hr, hie⟩ := h
      have ht' := ht.record (e := .cleared) rfl rfl
      exact ⟨⟨ht'.bytes, ht'.room, ht'.stored, ht'.enabled⟩, hr.clear, hie⟩
  | next => exact invariant_next h hs
  | txFlag =>
      obtain rfl := Option.some.inj hs
      obtain ⟨ht, hr, hie⟩ := h
      exact ⟨⟨ht.bytes, ht.room, ht.stored, ht.enabled⟩,
        ⟨hr.bytes, hr.room, hr.receiving, hr.full⟩, hie⟩
  | isrUtx =>
      simp only [step] at hs
      split_ifs at hs
      obtain rfl := Option.some.inj hs
      exact invariant_transmit h
  | isrUrx csr undbuf =>
      simp only [step] at hs
      split_ifs at hs
      obtain rfl := Option.some.inj hs
      exact invariant_receive h csr undbuf

/-- Without an interrupt in between, the steps of a send call are `uartNTxSend`. -/
theorem next_sends (buffer : List UInt8) (hm : s.mainLoop = .sending buffer) :
    Run step (fun _ a => a = .next) s
      { s with uart := s.uart.uartNTxSend buffer, mainLoop := .idle } := by
  induction buffer generalizing s with
  | nil =>
      apply Relation.ReflTransGen.single
      refine ⟨.next, rfl, ?_⟩
      simp only [step, next, hm]
      rfl
  | cons byte buffer ih =>
      let stored : Station := { s with
        uart := s.uart.storeTxByte byte, mainLoop := .stored byte buffer }
      let advanced : Station := { s with
        uart := (s.uart.storeTxByte byte).advanceTxMainLoopIndex, mainLoop := .advanced buffer }
      let sent : Station := { s with
        uart := s.uart.uartNTxSendByte byte, mainLoop := .sending buffer }
      have hstored : s.step .next = some stored := by simp only [step, next, hm, stored]
      have hadvanced : stored.step .next = some advanced := rfl
      have hsent : advanced.step .next = some sent := rfl
      exact .head ⟨.next, rfl, hstored⟩ (.head ⟨.next, rfl, hadvanced⟩
        (.head ⟨.next, rfl, hsent⟩ (ih (s := sent) rfl)))

/-- What the two buffers hold, between any two steps. -/
structure Lossless (s : Station) : Prop where
  transmitted : s.history.transmitted ++ s.uart.txBytes ++ s.mainLoop.unsent = s.history.sent
  returned : s.history.returned ++ s.uart.rxBytes = s.history.accepted
  overflowed : s.uart.uartNRxBufferFullOccurred = s.history.overflowed
  enabled : s.uart.uartTxBufferInterruptIndex ≠ s.uart.uartTxBufferMainLoopIndex →
    s.uart.bvUtxnie = true ∨ ∃ buffer, s.mainLoop = .advanced buffer

theorem full_of_dropped {csr undbuf : UInt8} (hs : s.step (.isrUrx csr undbuf) = some t)
    (hgood : Port.noErrors csr) (hfull : s.uart.uartNRxAvailable.toNat = 255) :
    t.uart.uartNRxBufferFullOccurred = true := by
  have hfree : ¬ s.uart.rxBufferFreeBytes ≠ 0 := by
    rw [rxBufferFreeBytes_ne_zero]
    omega
  simp only [step] at hs
  split_ifs at hs
  obtain rfl := Option.some.inj hs
  simp [receive, Port.isrUrx, hgood, hfree]

/-- The UART buffers are lossless under every interleaving of documented calls with the two
interrupts, and a byte that is dropped for lack of space is reported. -/
theorem uart_lossless (hr : Run step Documented init s) : s.Lossless ∧
    ∀ csr undbuf t, s.step (.isrUrx csr undbuf) = some t → Port.noErrors csr →
      s.uart.uartNRxAvailable.toNat = 255 → t.uart.uartNRxBufferFullOccurred = true := by
  have h : s.Invariant :=
    Run.invariant hr invariant_init fun _ _ _ h ha hs => invariant_step h ha hs
  exact ⟨⟨h.tx.bytes, h.rx.bytes, h.rx.full, h.tx.enabled⟩,
    fun _ _ _ hs hgood hfull => full_of_dropped hs hgood hfull⟩

/-- Two bytes are sent while the TX interrupt drains the first, and one is received. -/
theorem uart_lossless_both_ways : ∃ s, Run step Documented init s ∧
    (s.history.transmitted, s.history.returned) = ([5, 6], [9]) ∧ s.Lossless := by
  have hrun : (exec step Documented init [.txAvailable, .txSend [5, 6], .next, .next, .next,
      .isrUrx 0 9, .isrUtx, .next, .next, .txFlag, .isrUtx, .next, .next,
      .rxAvailable, .rxReceiveByte, .next]).map
      (fun s => (s.history.transmitted, s.history.returned)) = some ([5, 6], [9]) := by
    decide +kernel
  obtain ⟨s, hr, hs⟩ := exists_run_of_exec hrun
  exact ⟨s, hr, hs, (uart_lossless hr).1⟩

end Station
end WixelSdk.Uart
