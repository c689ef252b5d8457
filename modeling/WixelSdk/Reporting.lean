import WixelSdk.BoundedFifo
import WixelSdk.ByteLoop

/-!
# The reporting library

`reporting.c`: the characters that `putchar` stores in a ring of 512 bytes until `getchar` or one
of the send functions takes them. Data is put at `head` and taken at `tail`.
-/

namespace WixelSdk.Reporting

def bufsize : ℕ := 512

structure Buffer where
  report : ℕ → UInt8
  head : ℕ
  tail : ℕ
  bufferOverflow : Bool

/-- `null` is the 0x00 that `getchar` returns for an empty buffer. -/
inductive Event
  | accepted (c : UInt8)
  | refused (c : UInt8)
  | returned (c : UInt8)
  | null
  | radioComTxSendByte (c : UInt8)
  | usbComTxSendByte (c : UInt8)
  deriving DecidableEq

/-- The calls, with what `radioComTxAvailable` or `usbComTxAvailable` returns. -/
inductive Call
  | putchar (c : UInt8)
  | getchar
  | sendReportRadio (txAvailable : UInt8)
  | sendReportUSB (txAvailable : UInt8)

namespace Buffer

variable (b : Buffer)

def bufferInit : Buffer := { b with head := 0, tail := 0 }

def bufferempty : Bool := b.head == b.tail

def bufferfull : Bool := (b.head + 1) % bufsize == b.tail

def bufferdatasize : ℕ :=
  if b.bufferempty then 0
  else if b.bufferfull then bufsize - 1
  else if b.head > b.tail then b.head - b.tail
  else bufsize - b.tail + b.head

def putchar (c : UInt8) : Buffer :=
  if b.bufferfull then { b with bufferOverflow := true }
  else
    { report := Function.update b.report b.head c
      head := if b.head < bufsize - 1 then b.head + 1 else 0
      tail := b.tail
      bufferOverflow := false }

def getchar : UInt8 × Buffer :=
  if b.bufferempty then (0, b)
  else (b.report b.tail, { b with tail := if b.tail < bufsize - 1 then b.tail + 1 else 0 })

def bytesToSend (txAvailable : UInt8) : UInt8 :=
  if b.bufferdatasize ≥ txAvailable.toNat then txAvailable else .ofNat b.bufferdatasize

/-- The characters that a send function passes on, and the buffer after it. -/
def sendReport (txAvailable : UInt8) : Option (List UInt8 × Buffer) :=
  if b.bufferempty then some ([], b)
  else
    byteLoop (fun _ s => (s.1 ++ [s.2.getchar.1], s.2.getchar.2)) (b.bytesToSend txAvailable).toNat
      256 0 ([], b)

def sendReportRadio (txAvailable : UInt8) : Option (List Event × Buffer) :=
  (b.sendReport txAvailable).map (Prod.map (List.map .radioComTxSendByte) id)

def sendReportUSB (txAvailable : UInt8) : Option (List Event × Buffer) :=
  (b.sendReport txAvailable).map (Prod.map (List.map .usbComTxSendByte) id)

/-- What happens during a call, and the buffer after it. -/
def call : Call → Option (List Event × Buffer)
  | .putchar c => some ([if b.bufferfull then .refused c else .accepted c], b.putchar c)
  | .getchar => some ([if b.bufferempty then .null else .returned b.getchar.1], b.getchar.2)
  | .sendReportRadio txAvailable => b.sendReportRadio txAvailable
  | .sendReportUSB txAvailable => b.sendReportUSB txAvailable

def calls (b : Buffer) : List Call → Option (List Event × Buffer)
  | [] => some ([], b)
  | a :: as => (b.call a).bind fun (es, b') => (b'.calls as).map (Prod.map (es ++ ·) id)

def buffered : List UInt8 := Ring.contents bufsize b.report b.tail b.head

end Buffer

namespace Event

def acceptedChar : Event → Option UInt8
  | accepted c => some c
  | _ => none

def takenChar : Event → Option UInt8
  | returned c | radioComTxSendByte c | usbComTxSendByte c => some c
  | _ => none

def passedChar : Event → Option UInt8
  | null => some 0
  | e => e.takenChar

/-- Whether the most recent `putchar` was refused, given what was so before the events. -/
def lastRefused : Bool → List Event → Bool :=
  List.foldl fun last e =>
    match e with
    | accepted _ => false
    | refused _ => true
    | _ => last

end Event

/-! ### The ring -/

namespace Buffer

variable {b : Buffer} {q : BoundedFifo UInt8 (bufsize - 1)}

abbrev Holds (b : Buffer) (q : BoundedFifo UInt8 (bufsize - 1)) : Prop :=
  Ring.Holds bufsize b.report b.tail b.head q

theorem bufferInit_holds (b : Buffer) : b.bufferInit.Holds .empty :=
  .empty (by change 0 < 512; decide)

theorem two_le_bufsize : 2 ≤ bufsize := by decide

theorem bufferempty_iff (h : b.Holds q) : b.bufferempty = true ↔ q.list = [] := by
  rw [← h.nil_iff, bufferempty, beq_iff_eq, eq_comm]

theorem bufferfull_iff_next (h : b.Holds q) :
    b.bufferfull = true ↔ Ring.next bufsize b.head = b.tail := by
  rw [bufferfull, beq_iff_eq, Ring.succ_mod_eq_next h.write_lt]

theorem bufferfull_iff (h : b.Holds q) : b.bufferfull = true ↔ q.list.length = bufsize - 1 := by
  rw [bufferfull_iff_next h, h.full_iff two_le_bufsize]

theorem bufferdatasize_eq (h : b.Holds q) : b.bufferdatasize = q.list.length := by
  have hcount : q.list.length = Ring.count bufsize b.tail b.head := by
    rw [← h.contents, Ring.length_contents]
  unfold bufferdatasize
  by_cases hempty : b.bufferempty
  · rw [if_pos hempty, (bufferempty_iff h).mp hempty]
    rfl
  · have hne : b.head ≠ b.tail := by simpa [bufferempty] using hempty
    rw [if_neg hempty]
    by_cases hfull : b.bufferfull
    · rw [if_pos hfull, (bufferfull_iff h).mp hfull]
    · rw [if_neg hfull, hcount, Ring.count]
      have hlt := h.read_lt
      split_ifs <;> omega

theorem wrap_eq_next {i : ℕ} (hi : i < bufsize) :
    (if i < bufsize - 1 then i + 1 else 0) = Ring.next bufsize i := by
  unfold Ring.next
  split_ifs <;> omega

theorem putchar_of_lt (h : b.Holds q) (hlt : q.list.length < bufsize - 1) (c : UInt8) :
    b.bufferfull = false ∧ (b.putchar c).Holds (q.push c).2 ∧
      (b.putchar c).bufferOverflow = false := by
  have hfull : ¬b.bufferfull = true := by
    rw [bufferfull_iff h]
    omega
  have hnext := fun he => hfull ((bufferfull_iff_next h).mpr he)
  have hpush := h.push hnext c (q.push_of_lt c hlt).2
  rw [putchar, if_neg hfull]
  refine ⟨Bool.eq_false_iff.mpr hfull, ?_, rfl⟩
  change Ring.Holds bufsize (Function.update b.report b.head c) b.tail _ _
  rw [wrap_eq_next h.write_lt]
  exact hpush

theorem putchar_of_full (h : b.Holds q) (hlen : q.list.length = bufsize - 1) (c : UInt8) :
    b.bufferfull = true ∧ b.putchar c = { b with bufferOverflow := true } := by
  have hfull := (bufferfull_iff h).mpr hlen
  rw [putchar, if_pos hfull]
  exact ⟨hfull, rfl⟩

theorem getchar_of_nil (h : b.Holds q) (hq : q.list = []) :
    b.bufferempty = true ∧ b.getchar = (0, b) := by
  have hempty := (bufferempty_iff h).mpr hq
  rw [getchar, if_pos hempty]
  exact ⟨hempty, rfl⟩

theorem getchar_of_cons (h : b.Holds q) {c : UInt8} {cs : List UInt8} (hq : q.list = c :: cs) :
    b.bufferempty = false ∧ b.getchar.1 = c ∧ b.getchar.2.Holds q.pop.2 ∧
      b.getchar.2.bufferOverflow = b.bufferOverflow := by
  have hempty : ¬b.bufferempty = true := by
    rw [bufferempty_iff h, hq]
    exact List.cons_ne_nil c cs
  have hne : b.tail ≠ b.head := by
    rw [Ne, h.nil_iff, hq]
    exact List.cons_ne_nil c cs
  obtain ⟨hholds, hfirst⟩ := h.pop hne
  rw [getchar, if_neg hempty]
  refine ⟨Bool.eq_false_iff.mpr hempty, ?_, ?_, rfl⟩
  · have hhead : q.pop.1 = some c := congrArg List.head? hq
    exact Option.some.inj (hfirst.symm.trans hhead)
  · change Ring.Holds bufsize b.report _ b.head _
    rw [wrap_eq_next h.read_lt]
    exact hholds

/-- One character after the other is taken while there are any. -/
theorem foldl_getchar (n k : ℕ) (cs : List UInt8) (h : b.Holds q) (hn : n ≤ q.list.length) :
    let s := (List.range' k n).foldl
      (fun s _ => (s.1 ++ [s.2.getchar.1], s.2.getchar.2)) (cs, b)
    s.1 = cs ++ q.list.take n ∧ s.2.Holds (q.drop n) ∧ s.2.bufferOverflow = b.bufferOverflow := by
  induction n generalizing b q k cs with
  | zero => exact ⟨(List.append_nil cs).symm, h, rfl⟩
  | succ n ih =>
    obtain ⟨c, rest, hq⟩ : ∃ c rest, q.list = c :: rest :=
      List.exists_cons_of_length_pos (by omega)
    obtain ⟨-, hc, hnext, hoverflow⟩ := getchar_of_cons h hq
    have hpop : q.pop.2.list = rest := congrArg List.tail hq
    have hlen : n ≤ q.pop.2.list.length := by
      rw [hpop]
      rw [hq, List.length_cons] at hn
      omega
    obtain ⟨hchars, hholds, hover⟩ := ih (k + 1) (cs ++ [b.getchar.1]) hnext hlen
    have hdrop : q.pop.2.drop n = q.drop (n + 1) := by
      rw [BoundedFifo.drop, BoundedFifo.drop]
      simp only [hpop, hq, List.drop_succ_cons]
    dsimp only
    rw [List.range'_succ, List.foldl_cons]
    refine ⟨?_, hdrop ▸ hholds, hover.trans hoverflow⟩
    rw [hchars, hpop, hc, hq, List.take_succ_cons, List.append_assoc]
    rfl

theorem toNat_bytesToSend (h : b.Holds q) (txAvailable : UInt8) :
    (b.bytesToSend txAvailable).toNat = min txAvailable.toNat q.list.length := by
  unfold bytesToSend
  rw [bufferdatasize_eq h]
  split_ifs with hle
  · exact (min_eq_left hle).symm
  · have hlt := txAvailable.toNat_lt
    rw [UInt8.toNat_ofNat', Nat.mod_eq_of_lt (by omega)]
    omega

/-- A send function takes as many characters as it may. -/
theorem sendReport_eq (h : b.Holds q) (txAvailable : UInt8) :
    ∃ b', b.sendReport txAvailable =
        some (q.list.take (min txAvailable.toNat q.list.length), b') ∧
      b'.Holds (q.drop (min txAvailable.toNat q.list.length)) ∧
      b'.bufferOverflow = b.bufferOverflow := by
  unfold sendReport
  by_cases hempty : b.bufferempty
  · have hq := (bufferempty_iff h).mp hempty
    have hdrop : q.drop (min txAvailable.toNat q.list.length) = q := by
      cases q
      subst hq
      simp only [BoundedFifo.drop, List.drop_nil]
    rw [if_pos hempty, hdrop, hq]
    exact ⟨b, by rw [List.take_nil], h, rfl⟩
  · have hmin := Nat.min_le_right txAvailable.toNat q.list.length
    have hsmall := txAvailable.toNat_lt
    obtain ⟨hchars, hholds, hover⟩ := foldl_getchar _ 0 [] h hmin
    rw [if_neg hempty, toNat_bytesToSend h, byteLoop_eq_foldl (by omega)]
    exact ⟨_, congrArg some (Prod.ext hchars rfl), hholds, hover⟩

end Buffer

/-! ### Calls -/

structure Event.IsSend (send : UInt8 → Event) : Prop where
  taken : ∀ c, (send c).takenChar = some c
  accepted : ∀ c, (send c).acceptedChar = none
  refused : ∀ last c, Event.lastRefused last [send c] = last

namespace Event.IsSend

variable {send : UInt8 → Event}

theorem filterMap_taken (hs : IsSend send) (cs : List UInt8) :
    (cs.map send).filterMap takenChar = cs := by
  induction cs with
  | nil => rfl
  | cons c cs ih => rw [List.map_cons, List.filterMap_cons_some (hs.taken c), ih]

theorem filterMap_accepted (hs : IsSend send) (cs : List UInt8) :
    (cs.map send).filterMap acceptedChar = [] := by
  induction cs with
  | nil => rfl
  | cons c cs ih => rw [List.map_cons, List.filterMap_cons_none (hs.accepted c), ih]

theorem lastRefused_map (hs : IsSend send) (last : Bool) (cs : List UInt8) :
    lastRefused last (cs.map send) = last := by
  induction cs with
  | nil => rfl
  | cons c cs ih =>
    change lastRefused (lastRefused last [send c]) (cs.map send) = last
    rw [hs.refused, ih]

end Event.IsSend

theorem Event.lastRefused_append (last : Bool) (es es' : List Event) :
    lastRefused last (es ++ es') = lastRefused (lastRefused last es) es' :=
  List.foldl_append

theorem isSend_radio : Event.IsSend .radioComTxSendByte :=
  ⟨fun _ => rfl, fun _ => rfl, fun _ _ => rfl⟩

theorem isSend_usb : Event.IsSend .usbComTxSendByte :=
  ⟨fun _ => rfl, fun _ => rfl, fun _ _ => rfl⟩

/-- What events do to a buffer that holds `q` and leave with `q'` in it. -/
structure Moves (b : Buffer) (q : BoundedFifo UInt8 (bufsize - 1)) (es : List Event) (b' : Buffer)
    (q' : BoundedFifo UInt8 (bufsize - 1)) : Prop where
  holds : b'.Holds q'
  order : es.filterMap Event.takenChar ++ q'.list = q.list ++ es.filterMap Event.acceptedChar
  overflow : b'.bufferOverflow = Event.lastRefused b.bufferOverflow es

namespace Moves

variable {b b' b'' : Buffer} {q q' q'' : BoundedFifo UInt8 (bufsize - 1)} {es es' : List Event}

theorem refl (h : b.Holds q) : Moves b q [] b q := ⟨h, (List.append_nil _).symm, rfl⟩

theorem trans (h : Moves b q es b' q') (h' : Moves b' q' es' b'' q'') :
    Moves b q (es ++ es') b'' q'' where
  holds := h'.holds
  order := by
    rw [List.filterMap_append, List.filterMap_append, List.append_assoc, h'.order,
      ← List.append_assoc, h.order, List.append_assoc]
  overflow := by rw [h'.overflow, h.overflow, Event.lastRefused_append]

theorem putchar (h : b.Holds q) (c : UInt8) :
    ∃ q', Moves b q [if b.bufferfull then .refused c else .accepted c] (b.putchar c) q' := by
  by_cases hlt : q.list.length < bufsize - 1
  · obtain ⟨hfull, hholds, hover⟩ := Buffer.putchar_of_lt h hlt c
    rw [hfull]
    exact ⟨_, hholds, (q.push_of_lt c hlt).2, hover⟩
  · have hlen : q.list.length = bufsize - 1 := Nat.le_antisymm q.fits (not_lt.mp hlt)
    obtain ⟨hfull, heq⟩ := Buffer.putchar_of_full h hlen c
    rw [hfull, heq]
    exact ⟨q, h, (List.append_nil _).symm, rfl⟩

theorem getchar (h : b.Holds q) :
    ∃ q', Moves b q [if b.bufferempty then .null else .returned b.getchar.1] b.getchar.2 q' := by
  rcases hq : q.list with _ | ⟨c, cs⟩
  · obtain ⟨hempty, heq⟩ := Buffer.getchar_of_nil h hq
    rw [hempty, heq]
    exact ⟨q, h, (List.append_nil _).symm, rfl⟩
  · obtain ⟨hempty, hc, hholds, hover⟩ := Buffer.getchar_of_cons h hq
    rw [hempty, hc]
    refine ⟨_, hholds, ?_, hover⟩
    change c :: q.list.tail = q.list ++ []
    rw [hq, List.append_nil]
    rfl

theorem sendReport {send : UInt8 → Event} (hs : Event.IsSend send) (h : b.Holds q)
    (txAvailable : UInt8) :
    ∃ cs b' q', b.sendReport txAvailable = some (cs, b') ∧ Moves b q (cs.map send) b' q' := by
  obtain ⟨b', heq, hholds, hover⟩ := Buffer.sendReport_eq h txAvailable
  refine ⟨_, b', _, heq, hholds, ?_, ?_⟩
  · rw [hs.filterMap_taken, hs.filterMap_accepted, List.append_nil]
    exact List.take_append_drop _ _
  · rw [hs.lastRefused_map, hover]

theorem call (h : b.Holds q) (a : Call) :
    ∃ es b' q', b.call a = some (es, b') ∧ Moves b q es b' q' := by
  cases a with
  | putchar c =>
    obtain ⟨q', hm⟩ := Moves.putchar h c
    exact ⟨_, _, q', rfl, hm⟩
  | getchar =>
    obtain ⟨q', hm⟩ := Moves.getchar h
    exact ⟨_, _, q', rfl, hm⟩
  | sendReportRadio txAvailable =>
    obtain ⟨cs, b', q', heq, hm⟩ := Moves.sendReport isSend_radio h txAvailable
    exact ⟨_, b', q', congrArg (Option.map _) heq, hm⟩
  | sendReportUSB txAvailable =>
    obtain ⟨cs, b', q', heq, hm⟩ := Moves.sendReport isSend_usb h txAvailable
    exact ⟨_, b', q', congrArg (Option.map _) heq, hm⟩

theorem calls (h : b.Holds q) (as : List Call) :
    ∃ es b' q', b.calls as = some (es, b') ∧ Moves b q es b' q' := by
  induction as generalizing b q with
  | nil => exact ⟨[], b, q, rfl, .refl h⟩
  | cons a as ih =>
    obtain ⟨es, b', q', heq, hm⟩ := Moves.call h a
    obtain ⟨es', b'', q'', heq', hm'⟩ := ih hm.holds
    refine ⟨es ++ es', b'', q'', ?_, hm.trans hm'⟩
    rw [Buffer.calls, heq]
    exact congrArg (Option.map _) heq'

end Moves

/-- What each call does, given how many characters are waiting. -/
structure Buffer.CallsConform (b : Buffer) : Prop where
  accepts : ∀ c, b.buffered.length < bufsize - 1 →
    ∃ b', b.call (.putchar c) = some ([.accepted c], b') ∧ b'.buffered = b.buffered ++ [c]
  refuses : ∀ c, ¬b.buffered.length < bufsize - 1 →
    b.call (.putchar c) = some ([.refused c], { b with bufferOverflow := true })
  returns : ∀ c cs, b.buffered = c :: cs →
    ∃ b', b.call .getchar = some ([.returned c], b') ∧ b'.buffered = cs
  returnsNull : b.buffered = [] → b.call .getchar = some ([.null], b) ∧ b.getchar.1 = 0
  sendsRadio : ∀ txAvailable, ∃ (cs : List UInt8) (b' : Buffer),
    b.call (.sendReportRadio txAvailable) = some (cs.map .radioComTxSendByte, b') ∧
      cs.length = min txAvailable.toNat b.buffered.length
  sendsUSB : ∀ txAvailable, ∃ (cs : List UInt8) (b' : Buffer),
    b.call (.sendReportUSB txAvailable) = some (cs.map .usbComTxSendByte, b') ∧
      cs.length = min txAvailable.toNat b.buffered.length

namespace Buffer

variable {b : Buffer} {q : BoundedFifo UInt8 (bufsize - 1)}

theorem buffered_eq (h : b.Holds q) : b.buffered = q.list := h.contents

theorem length_take_min (h : b.Holds q) (n : ℕ) :
    (q.list.take (min n q.list.length)).length = min n b.buffered.length := by
  rw [buffered_eq h, List.length_take]
  omega

theorem callsConform (h : b.Holds q) : b.CallsConform where
  accepts c hlt := by
    rw [buffered_eq h] at hlt ⊢
    obtain ⟨hfull, hholds, -⟩ := putchar_of_lt h hlt c
    refine ⟨b.putchar c, ?_, (buffered_eq hholds).trans (q.push_of_lt c hlt).2⟩
    rw [call, hfull]
    rfl
  refuses c hlt := by
    rw [buffered_eq h] at hlt
    obtain ⟨hfull, heq⟩ := putchar_of_full h (Nat.le_antisymm q.fits (not_lt.mp hlt)) c
    rw [call, hfull, heq]
    rfl
  returns c cs hq := by
    rw [buffered_eq h] at hq
    obtain ⟨hempty, hc, hholds, -⟩ := getchar_of_cons h hq
    refine ⟨b.getchar.2, ?_, (buffered_eq hholds).trans (congrArg List.tail hq)⟩
    rw [call, hempty, hc]
    rfl
  returnsNull hq := by
    rw [buffered_eq h] at hq
    obtain ⟨hempty, heq⟩ := getchar_of_nil h hq
    rw [call, hempty, heq]
    exact ⟨rfl, rfl⟩
  sendsRadio txAvailable := by
    obtain ⟨b', heq, -, -⟩ := sendReport_eq h txAvailable
    exact ⟨_, b', congrArg (Option.map _) heq, length_take_min h _⟩
  sendsUSB txAvailable := by
    obtain ⟨b', heq, -, -⟩ := sendReport_eq h txAvailable
    exact ⟨_, b', congrArg (Option.map _) heq, length_take_min h _⟩

end Buffer

/-- Whatever is done with an initialised buffer, every call returns, and the characters that were
taken, followed by those that wait, are the accepted ones. -/
theorem calls_lossless (b : Buffer) (as : List Call) :
    ∃ es b', b.bufferInit.calls as = some (es, b') ∧
      es.filterMap Event.takenChar ++ b'.buffered = es.filterMap Event.acceptedChar ∧
      b'.bufferdatasize = b'.buffered.length ∧
      b'.bufferOverflow = Event.lastRefused b.bufferOverflow es ∧
      b'.CallsConform := by
  obtain ⟨es, b', q, heq, hm⟩ := Moves.calls (Buffer.bufferInit_holds b) as
  have horder : es.filterMap Event.takenChar ++ q.list = es.filterMap Event.acceptedChar :=
    hm.order
  refine ⟨es, b', heq, ?_, ?_, hm.overflow, Buffer.callsConform hm.holds⟩
  · rw [Buffer.buffered_eq hm.holds, horder]
  · rw [Buffer.buffered_eq hm.holds, Buffer.bufferdatasize_eq hm.holds]

/-- The 0x00 of an empty buffer was never put there. -/
theorem not_calls_lossless_of_null :
    ¬∀ (b : Buffer) as es b', b.bufferInit.calls as = some (es, b') →
      es.filterMap Event.passedChar ++ b'.buffered = es.filterMap Event.acceptedChar := by
  intro h
  have hnull := h ⟨fun _ => 0, 0, 0, false⟩ [.getchar] _ _ rfl
  revert hnull
  decide

end WixelSdk.Reporting
