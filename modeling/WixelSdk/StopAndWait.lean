import Mathlib.Data.List.Basic
import Mathlib.Logic.Function.Basic

/-!
# A duplex stop-and-wait protocol with piggybacked acknowledgements

Two parties exchange frames over a half-duplex medium that may lose any frame. Every packet is
sent with a sequence bit and repeated until some frame of kind `ack` arrives; acknowledgements
carry no bit of their own and may ride on a packet in the other direction. A party that has just
started is `resetting`: it announces itself with `reset` frames, each of which makes the peer
expect the bit `false` next, until an acknowledgement arrives.

This module defines the parties and says which part of a party each operation leaves alone: the
sending side of a direction depends on the queue, the transmit bit and the handshake, the receiving
side on what was accepted and on the expected bit.
-/

namespace WixelSdk.StopAndWait

variable {α : Type*}

inductive Kind
  | ping | nak | ack | reset
  deriving DecidableEq, Repr

structure Frame (α : Type*) where
  kind : Kind
  body : Option (Bool × α)

/-- One end of the protocol. `air` is the frame being transmitted, if any; `sent` and `accepted`
record every packet queued here and every packet accepted here, in order. -/
@[ext] structure Party (α : Type*) where
  queue : List α
  inbox : List α
  resetting : Bool
  anyBit : Bool
  rxBit : Bool
  txBit : Bool
  air : Option (Frame α)
  sent : List α
  accepted : List α

inductive Own (α : Type*)
  | enqueue (x : α)
  | release
  | discard
  | initiate
  | listen

namespace Party

variable (p : Party α)

def listen : Party α := { p with air := none }

/-- A frame of kind `k`, carrying the first queued packet when there is one. -/
def answer (k : Kind) : Party α :=
  { p with air := some ⟨k, p.queue.head?.map fun x => (p.txBit, x)⟩ }

def initiate : Party α :=
  if p.resetting then { p with air := some ⟨.reset, none⟩ }
  else if p.queue.isEmpty then p.listen
  else p.answer .ping

def enqueue (x : α) : Party α := { p with queue := p.queue ++ [x], sent := p.sent ++ [x] }

def release : Party α := { p with inbox := p.inbox.tail }

def discard : Party α := { p with queue := [] }

def acknowledge : Party α :=
  if p.resetting then { p with resetting := false, txBit := false }
  else if p.queue.isEmpty then p
  else { p with queue := p.queue.tail, txBit := !p.txBit }

def Expects (b : Bool) : Prop := p.anyBit = true ∨ p.rxBit ≠ b

instance (b : Bool) : Decidable (p.Expects b) := inferInstanceAs (Decidable (_ ∨ _))

/-- Accepts a packet with an expected bit when there is room, and says how to answer it. -/
def take (cap : ℕ) (b : Bool) (x : α) : Party α × Kind :=
  if p.Expects b then
    if p.inbox.length < cap then
      ({ p with inbox := p.inbox ++ [x], accepted := p.accepted ++ [x],
                rxBit := b, anyBit := false }, .ack)
    else (p, .nak)
  else (p, .ack)

def heed (k : Kind) : Party α := if k = .ack then p.acknowledge else p

def respond (cap : ℕ) : Option (Bool × α) → Party α
  | none => p.initiate
  | some (b, x) => (p.take cap b x).1.answer (p.take cap b x).2

def receive (cap : ℕ) (f : Frame α) : Party α :=
  if f.kind = .reset then { p with rxBit := true, air := some ⟨.ack, none⟩ }
  else (p.heed f.kind).respond cap f.body

def Acking : Prop := ∃ f, p.air = some f ∧ f.kind = .ack

/-- A packet on the air is the party's own first queued packet. -/
def Current : Prop :=
  ∀ f b x, p.air = some f → f.body = some (b, x) → b = p.txBit ∧ p.queue.head? = some x

/-- A party announces a reset only while it is resetting. -/
def Announces : Prop := ∀ f, p.air = some f → f.kind = .reset → p.resetting = true

structure OnAir : Prop where
  body : p.Current
  reset : p.Announces

theorem onAir_of_air (h : p.air = none) : p.OnAir :=
  ⟨by simp [Current, h], by simp [Announces, h]⟩

theorem onAir_listen : p.listen.OnAir := onAir_of_air _ rfl

theorem onAir_answer {k : Kind} (hk : k ≠ .reset) : (p.answer k).OnAir := by
  constructor
  · intro f b x hf hb
    obtain rfl := Option.some.inj hf
    obtain ⟨y, hy, he⟩ := Option.map_eq_some_iff.mp hb
    obtain ⟨rfl, rfl⟩ := Prod.mk.inj he
    exact ⟨rfl, hy⟩
  · intro f hf hr
    obtain rfl := Option.some.inj hf
    exact absurd hr hk

theorem onAir_initiate : p.initiate.OnAir := by
  unfold initiate
  split_ifs with hr hq
  · refine ⟨?_, fun f _ _ => hr⟩
    intro f b x hf hb
    obtain rfl := Option.some.inj hf
    cases hb
  · exact p.onAir_listen
  · exact p.onAir_answer (by decide)

theorem take_kind_ne_reset (cap : ℕ) (b : Bool) (x : α) : (p.take cap b x).2 ≠ .reset := by
  unfold take
  split_ifs <;> simp

theorem onAir_respond (cap : ℕ) (body : Option (Bool × α)) : (p.respond cap body).OnAir := by
  cases body with
  | none => exact p.onAir_initiate
  | some bx => exact onAir_answer _ (p.take_kind_ne_reset _ _ _)

theorem onAir_receive (cap : ℕ) (f : Frame α) : (p.receive cap f).OnAir := by
  unfold receive
  split_ifs with hr
  · refine ⟨?_, ?_⟩
    · intro g b x hg hb
      obtain rfl := Option.some.inj hg
      cases hb
    · intro g hg hk
      obtain rfl := Option.some.inj hg
      cases hk
  · exact onAir_respond _ _ _

theorem onAir_enqueue (x : α) (h : p.OnAir) : (p.enqueue x).OnAir := by
  refine ⟨?_, h.reset⟩
  intro f b y hf hb
  obtain ⟨hbit, hhead⟩ := h.body f b y hf hb
  exact ⟨hbit, by simp [enqueue, List.head?_append, hhead]⟩

/-- The two parties agree on everything the sending side of a direction depends on. -/
structure SameSender (p q : Party α) : Prop where
  sent : q.sent = p.sent
  queue : q.queue = p.queue
  txBit : q.txBit = p.txBit
  resetting : q.resetting = p.resetting

/-- The two parties agree on everything the receiving side of a direction depends on. -/
structure SameReceiver (p q : Party α) : Prop where
  accepted : q.accepted = p.accepted
  anyBit : q.anyBit = p.anyBit
  rxBit : q.rxBit = p.rxBit

theorem SameReceiver.expects {p q : Party α} (h : SameReceiver p q) (b : Bool) :
    q.Expects b ↔ p.Expects b := by
  unfold Expects
  rw [h.anyBit, h.rxBit]

theorem SameSender.trans {p q o : Party α} (h : SameSender p q) (h' : SameSender q o) :
    SameSender p o :=
  ⟨h'.sent.trans h.sent, h'.queue.trans h.queue, h'.txBit.trans h.txBit,
    h'.resetting.trans h.resetting⟩

theorem SameReceiver.trans {p q o : Party α} (h : SameReceiver p q) (h' : SameReceiver q o) :
    SameReceiver p o :=
  ⟨h'.accepted.trans h.accepted, h'.anyBit.trans h.anyBit, h'.rxBit.trans h.rxBit⟩

theorem initiate_sender : SameSender p p.initiate := by
  unfold initiate
  split_ifs <;> exact ⟨rfl, rfl, rfl, rfl⟩

theorem initiate_receiver : SameReceiver p p.initiate := by
  unfold initiate
  split_ifs <;> exact ⟨rfl, rfl, rfl⟩

theorem acknowledge_receiver : SameReceiver p p.acknowledge := by
  unfold acknowledge
  split_ifs <;> exact ⟨rfl, rfl, rfl⟩

theorem heed_receiver (k : Kind) : SameReceiver p (p.heed k) := by
  unfold heed
  split_ifs
  · exact p.acknowledge_receiver
  · exact ⟨rfl, rfl, rfl⟩

theorem take_sender (cap : ℕ) (b : Bool) (x : α) : SameSender p (p.take cap b x).1 := by
  unfold take
  split_ifs <;> exact ⟨rfl, rfl, rfl, rfl⟩

theorem take_kind_congr {p q : Party α} (h : SameReceiver p q) (hi : q.inbox = p.inbox) (cap : ℕ)
    (b : Bool) (x : α) : (q.take cap b x).2 = (p.take cap b x).2 := by
  unfold take
  simp only [h.expects, hi]
  split_ifs <;> rfl

theorem take_of_nak {p : Party α} {cap : ℕ} {b : Bool} {x : α} (h : (p.take cap b x).2 = .nak) :
    p.take cap b x = (p, .nak) := by
  unfold take at *
  split_ifs at *
  rfl

theorem heed_inbox (k : Kind) : (p.heed k).inbox = p.inbox := by
  unfold heed acknowledge
  split_ifs <;> rfl

theorem respond_sender (cap : ℕ) (body : Option (Bool × α)) :
    SameSender p (p.respond cap body) := by
  cases body with
  | none => exact p.initiate_sender
  | some bx => exact (p.take_sender _ _ _).trans ⟨rfl, rfl, rfl, rfl⟩

/-- A received frame concerns the sending side of its receiver only when it acknowledges. -/
theorem receive_sender (cap : ℕ) (f : Frame α) :
    SameSender (p.heed f.kind) (p.receive cap f) := by
  unfold receive
  split_ifs with hr
  · rw [hr]
    exact ⟨rfl, rfl, rfl, rfl⟩
  · exact respond_sender _ _ _

def own : Own α → Party α
  | .enqueue x => p.enqueue x
  | .release => p.release
  | .discard => p.discard
  | .initiate => p.initiate
  | .listen => p.listen

theorem own_receiver (o : Own α) : SameReceiver p (p.own o) := by
  cases o with
  | initiate => exact p.initiate_receiver
  | _ => exact ⟨rfl, rfl, rfl⟩

theorem listen_of_air (h : p.air = none) : p.listen = p := by
  ext1 <;> simp [listen, h]

theorem take_inbox (cap : ℕ) (b : Bool) (x : α) : ∃ got,
    (p.take cap b x).1.inbox = p.inbox ++ got ∧ (p.take cap b x).1.accepted = p.accepted ++ got := by
  unfold take
  split_ifs
  · exact ⟨[x], rfl, rfl⟩
  · exact ⟨[], by simp, by simp⟩
  · exact ⟨[], by simp, by simp⟩

theorem initiate_inbox : p.initiate.inbox = p.inbox := by
  unfold initiate
  split_ifs <;> rfl

theorem receive_inbox (cap : ℕ) (f : Frame α) : ∃ got,
    (p.receive cap f).inbox = p.inbox ++ got ∧ (p.receive cap f).accepted = p.accepted ++ got := by
  have hacc := (p.heed_receiver f.kind).accepted
  have hin := p.heed_inbox f.kind
  unfold receive
  split_ifs
  · exact ⟨[], by simp, by simp⟩
  · cases hb : f.body with
    | none =>
        refine ⟨[], ?_, ?_⟩
        · simp only [respond, initiate_inbox, hin, List.append_nil]
        · simp only [respond, (initiate_receiver _).accepted, hacc, List.append_nil]
    | some bx =>
        obtain ⟨got, hin', hacc'⟩ := (p.heed f.kind).take_inbox cap bx.1 bx.2
        rw [hin] at hin'
        rw [hacc] at hacc'
        exact ⟨got, hin', hacc'⟩

/-- An acknowledgement can only remove packets from the queue. -/
theorem mem_queue_of_heed {k : Kind} {x : α} (h : x ∈ (p.heed k).queue) : x ∈ p.queue := by
  unfold heed acknowledge at h
  split_ifs at h
  · exact h
  · exact h
  · exact List.mem_of_mem_tail h
  · exact h

theorem mem_queue_of_receive {cap : ℕ} {f : Frame α} {x : α} (h : x ∈ (p.receive cap f).queue) :
    x ∈ p.queue := by
  rw [(p.receive_sender cap f).queue] at h
  exact p.mem_queue_of_heed h

theorem not_acking_listen : ¬ p.listen.Acking := by
  rintro ⟨f, hf, -⟩
  cases hf

theorem not_acking_answer {k : Kind} (hk : k ≠ .ack) : ¬ (p.answer k).Acking := by
  rintro ⟨f, hf, hf'⟩
  obtain rfl := Option.some.inj hf
  exact hk hf'

theorem not_acking_initiate : ¬ p.initiate.Acking := by
  unfold initiate
  split_ifs
  · rintro ⟨f, hf, hk⟩
    obtain rfl := Option.some.inj hf
    cases hk
  · exact p.not_acking_listen
  · exact p.not_acking_answer (by decide)

theorem acking_of_own {o : Own α} (h : (p.own o).Acking) : p.Acking := by
  cases o with
  | initiate => exact absurd h p.not_acking_initiate
  | listen => exact absurd h p.not_acking_listen
  | _ => exact h

/-- Only emptying its queue makes a party transmit something else than its first packet. -/
theorem OnAir.own {p : Party α} (h : p.OnAir) {o : Own α} (ho : o ≠ .discard) :
    (p.own o).OnAir := by
  cases o with
  | enqueue x => exact p.onAir_enqueue x h
  | release => exact ⟨h.body, h.reset⟩
  | discard => exact absurd rfl ho
  | initiate => exact p.onAir_initiate
  | listen => exact p.onAir_listen

theorem Announces.own {p : Party α} (h : p.Announces) (o : Own α) : (p.own o).Announces := by
  cases o with
  | initiate => exact p.onAir_initiate.reset
  | listen => exact p.onAir_listen.reset
  | _ => exact h

theorem own_resetting (o : Own α) : (p.own o).resetting = p.resetting := by
  cases o with
  | initiate => exact p.initiate_sender.resetting
  | _ => rfl

end Party

end WixelSdk.StopAndWait
