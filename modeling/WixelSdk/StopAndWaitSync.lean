import WixelSdk.StopAndWait

/-!
# One direction of the stop-and-wait protocol

`Synced` relates the packets queued and accepted since a given moment to the sequence bits of both
parties and to the frames on the air. Each operation of either party keeps it, so that it is an
invariant of the two parties joined by a medium that may lose every frame: `InSync.step` says which
moves keep it, and `InSync.delivered` reads reliable ordered delivery off it.
-/

namespace WixelSdk.StopAndWait

variable {α : Type*}

open Party

/-- One direction, from `s` to `r`, since the moment when `s` had queued `sent₀` and `r` had
accepted `accepted₀`. Of the packets queued since then `removed` have left the queue; the packet
after them is `taken` when `r` has accepted it but `s` does not know. -/
structure Synced (sent₀ accepted₀ : List α) (s r : Party α) (removed : List α)
    (taken : Option α) : Prop where
  sent : s.sent = sent₀ ++ (removed ++ s.queue)
  accepted : r.accepted = accepted₀ ++ (removed ++ taken.toList)
  air : s.Announces
  head : ∀ x, taken = some x → s.queue.head? = some x ∧ ¬ r.Expects s.txBit
  fresh : s.resetting = false → taken = none → r.Expects s.txBit ∧ ¬ r.Acking
  handshake : s.resetting = true → removed = [] ∧ s.txBit = false

namespace Synced

variable {sent₀ accepted₀ removed : List α} {taken : Option α} {s s' r r' : Party α}

theorem of_sender (h : Synced sent₀ accepted₀ s r removed taken) (hs : SameSender s s')
    (ha : s'.Announces) : Synced sent₀ accepted₀ s' r removed taken where
  sent := by rw [hs.sent, hs.queue]; exact h.sent
  accepted := h.accepted
  air := ha
  head := by rw [hs.queue, hs.txBit]; exact h.head
  fresh := by rw [hs.resetting, hs.txBit]; exact h.fresh
  handshake := by rw [hs.resetting, hs.txBit]; exact h.handshake

theorem of_receiver (h : Synced sent₀ accepted₀ s r removed taken) (hr : SameReceiver r r')
    (ha : r'.Acking → r.Acking) : Synced sent₀ accepted₀ s r' removed taken where
  sent := h.sent
  accepted := by rw [hr.accepted]; exact h.accepted
  air := h.air
  head := by simp only [hr.expects]; exact h.head
  fresh hn ht := by
    obtain ⟨he, hk⟩ := h.fresh hn ht
    exact ⟨(hr.expects _).mpr he, fun hk' => hk (ha hk')⟩
  handshake := h.handshake

theorem enqueue (h : Synced sent₀ accepted₀ s r removed taken) (x : α) :
    Synced sent₀ accepted₀ (s.enqueue x) r removed taken where
  sent := by simp [Party.enqueue, h.sent]
  accepted := h.accepted
  air := h.air
  head y hy := by
    obtain ⟨hh, he⟩ := h.head y hy
    exact ⟨by simp [Party.enqueue, List.head?_append, hh], he⟩
  fresh := h.fresh
  handshake := h.handshake

theorem own (h : Synced sent₀ accepted₀ s r removed taken) {o : Own α} (ho : o ≠ .discard) :
    Synced sent₀ accepted₀ (s.own o) r removed taken := by
  cases o with
  | enqueue x => exact h.enqueue x
  | release => exact h.of_sender ⟨rfl, rfl, rfl, rfl⟩ h.air
  | discard => exact absurd rfl ho
  | initiate => exact h.of_sender s.initiate_sender s.onAir_initiate.reset
  | listen => exact h.of_sender ⟨rfl, rfl, rfl, rfl⟩ s.onAir_listen.reset

/-- The sender handles an acknowledgement that the receiver is transmitting. Outside the reset
handshake this is always the acknowledgement of the first queued packet. -/
theorem acknowledge (h : Synced sent₀ accepted₀ s r removed taken) (hr : r.Acking)
    (hclean : s.resetting = true → r.accepted ≠ accepted₀ ∨ r.Expects false) :
    ∃ removed' taken', ∀ t : Party α, SameSender s.acknowledge t → t.Announces →
      Synced sent₀ accepted₀ t r.listen removed' taken' := by
  have hlisten : SameReceiver r r.listen := ⟨rfl, rfl, rfl⟩
  by_cases hres : s.resetting = true
  · have hack : s.acknowledge = { s with resetting := false, txBit := false } := by
      simp [Party.acknowledge, hres]
    obtain ⟨hrem, hbit⟩ := h.handshake hres
    refine ⟨removed, taken, fun t ht ha => ⟨?_, h.accepted, ha, ?_, ?_, ?_⟩⟩
    · rw [ht.sent, ht.queue, hack]; exact h.sent
    · intro x hx
      rw [ht.queue, ht.txBit, hack]
      obtain ⟨hh, he⟩ := h.head x hx
      exact ⟨hh, by rw [hlisten.expects]; rwa [hbit] at he⟩
    · intro _ hx
      rw [ht.txBit, hack]
      refine ⟨?_, r.not_acking_listen⟩
      have hacc : r.accepted = accepted₀ := by simp [h.accepted, hrem, hx]
      exact (hlisten.expects _).mpr ((hclean hres).resolve_left (fun hne => hne hacc))
    · intro hc
      rw [ht.resetting, hack] at hc
      cases hc
  · have hres' : s.resetting = false := by simpa using hres
    obtain ⟨x, hx⟩ : ∃ x, taken = some x := by
      cases ht : taken with
      | none => exact absurd hr (h.fresh hres' ht).2
      | some x => exact ⟨x, rfl⟩
    obtain ⟨hh, he⟩ := h.head x hx
    obtain ⟨q, hq⟩ : ∃ q, s.queue = x :: q := by
      cases hs : s.queue with
      | nil => simp [hs] at hh
      | cons y q => simp only [hs, List.head?_cons, Option.some.injEq] at hh; exact ⟨q, by rw [hh]⟩
    have hack : s.acknowledge = { s with queue := q, txBit := !s.txBit } := by
      simp [Party.acknowledge, hres', hq]
    refine ⟨removed ++ [x], none, fun t ht ha => ⟨?_, ?_, ha, ?_, ?_, ?_⟩⟩
    · rw [ht.sent, ht.queue, hack]
      simp [h.sent, hq]
    · simp [Party.listen, h.accepted, hx]
    · intro y hy
      cases hy
    · intro _ _
      rw [ht.txBit, hack]
      refine ⟨(hlisten.expects _).mpr ?_, r.not_acking_listen⟩
      unfold Party.Expects at he ⊢
      simp only [not_or, ne_eq, not_not] at he
      exact Or.inr (by simp [he.2])
    · intro hc
      rw [ht.resetting, hack] at hc
      exact absurd hc hres

theorem take (h : Synced sent₀ accepted₀ s r removed taken) (cap : ℕ) {b : Bool} {x : α}
    (hx : (b = s.txBit ∧ s.queue.head? = some x) ∨ (r.take cap b x).2 = .nak) :
    ∃ taken', Synced sent₀ accepted₀ s
      ((r.take cap b x).1.answer (r.take cap b x).2) removed taken' := by
  by_cases hnak : (r.take cap b x).2 = .nak
  · rw [take_of_nak hnak]
    exact ⟨taken, h.of_receiver ⟨rfl, rfl, rfl⟩
      (fun hc => absurd hc (r.not_acking_answer (by simp)))⟩
  · obtain ⟨rfl, hhead⟩ := hx.resolve_right hnak
    unfold Party.take at *
    split_ifs at * with he hroom
    · have htaken : taken = none := by
        cases ht : taken with
        | none => rfl
        | some y => exact absurd he (h.head y ht).2
      refine ⟨some x, h.sent, ?_, h.air, ?_, ?_, h.handshake⟩
      · simp [Party.answer, h.accepted, htaken]
      · intro y hy
        obtain rfl := Option.some.inj hy
        exact ⟨hhead, by simp [Party.answer, Party.Expects]⟩
      · intro _ hc
        cases hc
    · exact absurd rfl hnak
    · refine ⟨taken, h.sent, h.accepted, h.air, h.head, ?_, h.handshake⟩
      intro hres ht
      exact absurd (h.fresh hres ht).1 he

/-- The receiver gets a frame that the sender is transmitting. -/
theorem receive (h : Synced sent₀ accepted₀ s r removed taken) (cap : ℕ) {f : Frame α}
    (hf : s.air = some f) (hreset : f.kind = .reset → r.accepted = accepted₀)
    (hbody : ∀ b x, f.body = some (b, x) →
      (b = s.txBit ∧ s.queue.head? = some x) ∨ (r.take cap b x).2 = .nak) :
    ∃ taken', Synced sent₀ accepted₀ s (r.receive cap f) removed taken' := by
  unfold Party.receive
  split_ifs with hkind
  · have hres := h.air f hf hkind
    obtain ⟨hrem, -⟩ := h.handshake hres
    have htaken : taken = none := by
      have hacc := h.accepted
      rw [hreset hkind, hrem] at hacc
      cases ht : taken with
      | none => rfl
      | some x => simp [ht] at hacc
    exact ⟨none, h.sent, by simp [h.accepted, htaken], h.air, by simp,
      fun hc => absurd hres (by simp [hc]), h.handshake⟩
  · have hq := r.heed_receiver f.kind
    cases hb : f.body with
    | none =>
        exact ⟨taken, h.of_receiver (hq.trans (initiate_receiver _))
          (fun hc => absurd hc (not_acking_initiate _))⟩
    | some bx =>
        obtain ⟨b, x⟩ := bx
        have hair : (r.heed f.kind).Acking → r.Acking := by
          unfold Party.heed Party.acknowledge Party.Acking
          split_ifs <;> exact id
        apply (h.of_receiver hq hair).take cap
        rw [take_kind_congr hq (r.heed_inbox _)]
        exact hbody b x hb

theorem discard (h : Synced sent₀ accepted₀ s r removed taken) (hres : s.resetting = false)
    (hexp : r.Expects s.txBit) : Synced s.sent r.accepted s.discard r [] none where
  sent := by simp [Party.discard]
  accepted := by simp
  air := h.air
  head x hx := by cases hx
  fresh _ _ := by
    have htaken : taken = none := by
      cases ht : taken with
      | none => rfl
      | some y => exact absurd hexp (h.head y ht).2
    exact ⟨hexp, (h.fresh hres htaken).2⟩
  handshake hc := by exact absurd hres (by simpa [Party.discard] using hc)

end Synced

abbrev Pair (α : Type*) := Bool → Party α

inductive Move (α : Type*)
  | own (y : Bool) (o : Own α)
  | deliver (y : Bool)

/-- A delivered frame reaches a peer that transmits nothing; its sender listens afterwards. -/
def step (cap : ℕ) (s : Pair α) : Move α → Option (Pair α)
  | .own y o => some (Function.update s y ((s y).own o))
  | .deliver y =>
      match (s y).air with
      | some f =>
          if (s !y).air.isNone then
            some (Function.update (Function.update s y (s y).listen) (!y) ((s !y).receive cap f))
          else none
      | none => none

theorem step_deliver {cap : ℕ} {y : Bool} {s t : Pair α}
    (h : step cap s (.deliver y) = some t) : ∃ f, (s y).air = some f ∧ (s !y).air = none ∧
      t = Function.update (Function.update s y (s y).listen) (!y) ((s !y).receive cap f) := by
  simp only [step] at h
  split at h
  · rename_i f hf
    split at h
    · rename_i hair
      exact ⟨f, hf, Option.isNone_iff_eq_none.mp hair, (Option.some.inj h).symm⟩
    · cases h
  · cases h

def InSync (sent₀ accepted₀ : List α) (x : Bool) (s : Pair α) : Prop :=
  ∃ removed taken, Synced sent₀ accepted₀ (s x) (s !x) removed taken

/-- What the sender transmits may be delivered: a `reset` only before any packet was accepted, a
packet only if it is the first queued one or is refused. -/
def MayDeliver (cap : ℕ) (accepted₀ : List α) (s r : Party α) : Prop :=
  ∀ f, s.air = some f → (f.kind = .reset → r.accepted = accepted₀) ∧
    ∀ b x, f.body = some (b, x) →
      (b = s.txBit ∧ s.queue.head? = some x) ∨ (r.take cap b x).2 = .nak

/-- What the receiver transmits may be delivered: no acknowledgement ends the handshake while the
receiver would take the sender's first packet for a repetition. -/
def MayAnswer (accepted₀ : List α) (s r : Party α) : Prop :=
  r.Acking → s.resetting = true → r.accepted ≠ accepted₀ ∨ r.Expects false

/-- What a move must respect for the direction from `x`. -/
def Clean (cap : ℕ) (accepted₀ : List α) (x : Bool) (s : Pair α) : Move α → Prop
  | .own y .discard => y ≠ x
  | .own _ _ => True
  | .deliver y =>
      if y = x then MayDeliver cap accepted₀ (s x) (s !x) else MayAnswer accepted₀ (s x) (s !x)

namespace InSync

variable {sent₀ accepted₀ : List α} {x : Bool} {s t : Pair α} {cap : ℕ}

theorem of_parties {p q : Party α} {removed : List α} {taken : Option α}
    (hp : t x = p) (hq : t (!x) = q) (h : Synced sent₀ accepted₀ p q removed taken) :
    InSync sent₀ accepted₀ x t := ⟨removed, taken, by rw [hp, hq]; exact h⟩

theorem update_sender {p : Party α} {removed : List α} {taken : Option α}
    (h : Synced sent₀ accepted₀ p (s !x) removed taken) :
    InSync sent₀ accepted₀ x (Function.update s x p) :=
  of_parties (by simp) (by simp) h

theorem update_receiver {p : Party α} {removed : List α} {taken : Option α}
    (h : Synced sent₀ accepted₀ (s x) p removed taken) :
    InSync sent₀ accepted₀ x (Function.update s (!x) p) :=
  of_parties (by simp) (by simp) h

theorem deliver_own {f : Frame α} (h : InSync sent₀ accepted₀ x s) (hf : (s x).air = some f)
    (hclean : MayDeliver cap accepted₀ (s x) (s !x)) : InSync sent₀ accepted₀ x
      (Function.update (Function.update s x (s x).listen) (!x) ((s !x).receive cap f)) := by
  obtain ⟨removed, taken, hsync⟩ := h
  obtain ⟨hreset, hbody⟩ := hclean f hf
  obtain ⟨taken', hsync'⟩ := hsync.receive cap hf hreset hbody
  have hlisten : Synced sent₀ accepted₀ (s x).listen ((s !x).receive cap f) removed taken' :=
    hsync'.of_sender ⟨rfl, rfl, rfl, rfl⟩ (s x).onAir_listen.reset
  exact of_parties (by simp) (by simp) hlisten

theorem deliver_peer {f : Frame α} (h : InSync sent₀ accepted₀ x s) (hf : (s !x).air = some f)
    (hclean : MayAnswer accepted₀ (s x) (s !x)) : InSync sent₀ accepted₀ x
      (Function.update (Function.update s (!x) (s !x).listen) x ((s x).receive cap f)) := by
  obtain ⟨removed, taken, hsync⟩ := h
  have hsame := (s x).receive_sender cap f
  have hair := ((s x).onAir_receive cap f).reset
  by_cases hk : f.kind = .ack
  · have hack : (s !x).Acking := ⟨f, hf, hk⟩
    obtain ⟨removed', taken', hnew⟩ := hsync.acknowledge hack (hclean hack)
    rw [hk] at hsame
    exact of_parties (by simp) (by simp) (hnew _ hsame hair)
  · have hlisten : Synced sent₀ accepted₀ (s x) (s !x).listen removed taken :=
      hsync.of_receiver ⟨rfl, rfl, rfl⟩ (fun hc => absurd hc (s !x).not_acking_listen)
    rw [heed, if_neg hk] at hsame
    exact of_parties (by simp) (by simp) (hlisten.of_sender hsame hair)

theorem step {m : Move α} (h : InSync sent₀ accepted₀ x s) (hm : Clean cap accepted₀ x s m)
    (hs : StopAndWait.step cap s m = some t) : InSync sent₀ accepted₀ x t := by
  cases m with
  | own y o =>
      obtain rfl := Option.some.inj hs
      obtain ⟨removed, taken, hsync⟩ := h
      by_cases hy : y = x
      · subst hy
        exact update_sender (hsync.own (fun ho => by subst ho; exact hm rfl))
      · obtain rfl : y = !x := by cases x <;> cases y <;> simp_all
        exact update_receiver (hsync.of_receiver ((s !x).own_receiver o) (s !x).acking_of_own)
  | deliver y =>
      obtain ⟨f, hf, -, rfl⟩ := step_deliver hs
      by_cases hy : y = x
      · subst hy
        exact h.deliver_own hf (by simpa only [Clean, if_true] using hm)
      · obtain rfl : y = !x := by cases x <;> cases y <;> simp_all
        simp only [Clean, if_neg hy] at hm
        simpa only [Bool.not_not] using h.deliver_peer hf hm

theorem discard (h : InSync sent₀ accepted₀ x s) (hres : (s x).resetting = false)
    (hexp : (s !x).Expects (s x).txBit) :
    InSync (s x).sent (s !x).accepted x (Function.update s x (s x).discard) := by
  obtain ⟨removed, taken, hsync⟩ := h
  exact update_sender (hsync.discard hres hexp)

/-- Reliable ordered delivery: what was accepted is a prefix of what was queued, and what left the
queue is a prefix of what was accepted. -/
theorem delivered (h : InSync sent₀ accepted₀ x s) :
    ∃ sent accepted removed, (s x).sent = sent₀ ++ sent ∧ (s !x).accepted = accepted₀ ++ accepted ∧
      accepted <+: sent ∧ sent = removed ++ (s x).queue ∧ removed <+: accepted := by
  obtain ⟨removed, taken, hsync⟩ := h
  refine ⟨removed ++ (s x).queue, removed ++ taken.toList, removed, hsync.sent, hsync.accepted,
    ?_, rfl, List.prefix_append _ _⟩
  apply (List.prefix_append_right_inj _).mpr
  cases ht : taken with
  | none => exact List.nil_prefix
  | some y =>
      obtain ⟨q, hq⟩ := List.head?_eq_some_iff.mp (hsync.head y ht).1
      rw [hq]
      exact ⟨q, rfl⟩

end InSync

/-- A direction on which nothing is queued and nothing sent is on the air, and whose receiver is
ready for the first bit of a sender that has not just started. -/
theorem inSync_of_idle {x : Bool} {s : Pair α} (hq : (s x).queue = []) (hair : (s x).air = none)
    (hbit : (s x).resetting = true → (s x).txBit = false)
    (hexp : (s x).resetting = false → (s !x).Expects (s x).txBit ∧ ¬ (s !x).Acking) :
    InSync (s x).sent (s !x).accepted x s := by
  refine ⟨[], none, by simp [hq], by simp, (onAir_of_air _ hair).reset, by simp, ?_, ?_⟩
  · intro hres _
    exact hexp hres
  · intro hres
    exact ⟨rfl, hbit hres⟩

theorem onAir_step {cap : ℕ} {y : Bool} {s t : Pair α} {m : Move α} (h : (s y).OnAir)
    (hm : m ≠ .own y .discard) (hs : step cap s m = some t) : (t y).OnAir := by
  cases m with
  | own z o =>
      obtain rfl := Option.some.inj hs
      by_cases hz : z = y
      · subst hz
        rw [Function.update_self]
        exact h.own fun ho => hm (by rw [ho])
      · rwa [Function.update_of_ne (Ne.symm hz)]
  | deliver z =>
      obtain ⟨f, -, -, rfl⟩ := step_deliver hs
      by_cases hz : z = y
      · subst hz
        rw [Function.update_of_ne (by simp), Function.update_self]
        exact (s z).onAir_listen
      · obtain rfl : y = !z := by cases z <;> cases y <;> simp_all
        rw [Function.update_self]
        exact (s !z).onAir_receive cap f

/-- No end is in a reset handshake, and none announces one. -/
def Connected (s : Pair α) : Prop := ∀ y, (s y).resetting = false ∧ (s y).Announces

namespace Connected

variable {s t : Pair α} {cap : ℕ}

theorem update {y : Bool} {p : Party α} (h : Connected s) (hp : p.resetting = false)
    (hair : p.Announces) : Connected (Function.update s y p) := by
  intro z
  by_cases hz : z = y
  · subst hz
    rw [Function.update_self]
    exact ⟨hp, hair⟩
  · rw [Function.update_of_ne hz]
    exact h z

theorem receive_resetting {p : Party α} (cap : ℕ) (hp : p.resetting = false) (f : Frame α) :
    (p.receive cap f).resetting = false := by
  rw [(p.receive_sender cap f).resetting]
  unfold Party.heed Party.acknowledge
  split_ifs <;> simp_all

theorem step {m : Move α} (h : Connected s) (hs : StopAndWait.step cap s m = some t) :
    Connected t := by
  cases m with
  | own y o =>
      obtain rfl := Option.some.inj hs
      exact h.update (((s y).own_resetting o).trans (h y).1) ((h y).2.own o)
  | deliver y =>
      obtain ⟨f, -, -, rfl⟩ := step_deliver hs
      have hlisten : Connected (Function.update s y (s y).listen) :=
        h.update (h y).1 (s y).onAir_listen.reset
      exact hlisten.update (receive_resetting cap (h (!y)).1 f)
        ((s !y).onAir_receive cap f).reset

theorem clean {x : Bool} {accepted₀ : List α} {m : Move α} (h : Connected s)
    (hair : (s x).OnAir) (hm : m ≠ .own x .discard) : Clean cap accepted₀ x s m := by
  cases m with
  | own y o =>
      cases o with
      | discard => exact fun hy => hm (by rw [hy])
      | _ => trivial
  | deliver y =>
      simp only [Clean]
      split_ifs
      · intro f hf
        refine ⟨fun hk => ?_, fun b a hb => Or.inl (hair.body f b a hf hb)⟩
        exact absurd (hair.reset f hf hk) (by simp [(h x).1])
      · exact fun _ hres => absurd hres (by simp [(h x).1])

end Connected
end WixelSdk.StopAndWait
