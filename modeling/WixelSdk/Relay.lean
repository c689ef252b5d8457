import WixelSdk.Transition

/-!
# Bytes passed on between two ports

A main loop with a port on the left and a port on the right runs, between other things, a loop for
each direction:

`while (left.rxAvailable() && right.txAvailable()) right.txSendByte(left.rxReceiveByte());`

What happens at a port while a call runs is part of the call, and what happens between two calls is
an event of the port. `Contract` says what the loops rely on, in terms of a `View` of each port, and
`Passing.run` that whatever happens in between, the bytes sent on one side are those received on the
other, up to a byte that the loop holds.
-/

namespace WixelSdk.Relay
open Transition

/-- The functions of a port. An event with `isCall` is a call that the main loop makes outside of the
loops. -/
structure Port (σ α ρ ε : Type*) where
  idle : σ → Bool
  rxAvailable : σ → ρ → Option (Bool × σ)
  rxReceiveByte : σ → ρ → Option (α × σ)
  txAvailable : σ → ρ → Option (Bool × σ)
  txSendByte : σ → α → ρ → Option σ
  isCall : ε → Bool
  event : σ → ε → Option σ

inductive Direction
  | toRight
  | toLeft
  deriving DecidableEq, Repr

/-- The place of the main loop: outside of the loops, or before a call. -/
inductive Stage (α : Type*)
  | rest
  | readable (d : Direction)
  | writable (d : Direction)
  | receive (d : Direction)
  | send (d : Direction) (a : α)
  deriving DecidableEq, Repr

namespace Stage

variable {α : Type*}

def isRest : Stage α → Bool
  | .rest => true
  | _ => false

def hand (d : Direction) : Stage α → List α
  | .send d' a => if d' = d then [a] else []
  | _ => []

end Stage

structure State (σ τ α : Type*) where
  left : σ
  right : τ
  stage : Stage α

/-- `left` and `right` are the next call of the loops, with what happens while it runs. -/
inductive Action (ρ ρ' ε ε' : Type*)
  | enter
  | left (r : ρ)
  | right (r : ρ')
  | leftEvent (e : ε)
  | rightEvent (e : ε')

variable {σ τ α ρ ρ' ε ε' : Type*}

/-! ### The loops -/

section Step

def Idle (p : Port σ α ρ ε) (q : Port τ α ρ' ε') (s : State σ τ α) : Prop :=
  p.idle s.left = true ∧ q.idle s.right = true

instance (p : Port σ α ρ ε) (q : Port τ α ρ' ε') (s : State σ τ α) : Decidable (Idle p q s) :=
  inferInstanceAs (Decidable (_ ∧ _))

/-- The next call of the loops, if it is one on the left. -/
def callLeft (p : Port σ α ρ ε) (s : State σ τ α) (r : ρ) : Option (State σ τ α) :=
  match s.stage with
  | .readable .toRight => (p.rxAvailable s.left r).map fun (b, l) =>
      ⟨l, s.right, if b then .writable .toRight else .readable .toLeft⟩
  | .receive .toRight => (p.rxReceiveByte s.left r).map fun (a, l) =>
      ⟨l, s.right, .send .toRight a⟩
  | .writable .toLeft => (p.txAvailable s.left r).map fun (b, l) =>
      ⟨l, s.right, if b then .receive .toLeft else .rest⟩
  | .send .toLeft a => (p.txSendByte s.left a r).map fun l => ⟨l, s.right, .readable .toLeft⟩
  | _ => none

/-- The next call of the loops, if it is one on the right. -/
def callRight (q : Port τ α ρ' ε') (s : State σ τ α) (r : ρ') : Option (State σ τ α) :=
  match s.stage with
  | .writable .toRight => (q.txAvailable s.right r).map fun (b, x) =>
      ⟨s.left, x, if b then .receive .toRight else .readable .toLeft⟩
  | .send .toRight a => (q.txSendByte s.right a r).map fun x => ⟨s.left, x, .readable .toRight⟩
  | .readable .toLeft => (q.rxAvailable s.right r).map fun (b, x) =>
      ⟨s.left, x, if b then .writable .toLeft else .rest⟩
  | .receive .toLeft => (q.rxReceiveByte s.right r).map fun (a, x) =>
      ⟨s.left, x, .send .toLeft a⟩
  | _ => none

def step (p : Port σ α ρ ε) (q : Port τ α ρ' ε') (s : State σ τ α) :
    Action ρ ρ' ε ε' → Option (State σ τ α)
  | .enter => if Idle p q s ∧ s.stage.isRest then some { s with stage := .readable .toRight } else none
  | .left r => if Idle p q s then callLeft p s r else none
  | .right r => if Idle p q s then callRight q s r else none
  | .leftEvent e =>
      if p.isCall e → Idle p q s ∧ s.stage.isRest then
        (p.event s.left e).map fun l => { s with left := l }
      else none
  | .rightEvent e =>
      if q.isCall e → Idle p q s ∧ s.stage.isRest then
        (q.event s.right e).map fun l => { s with right := l }
      else none

def Permits (A : σ → ε → Prop) (B : τ → ε' → Prop) (s : State σ τ α) : Action ρ ρ' ε ε' → Prop
  | .leftEvent e => A s.left e
  | .rightEvent e => B s.right e
  | _ => True

instance (A : σ → ε → Prop) (B : τ → ε' → Prop) [∀ s e, Decidable (A s e)]
    [∀ s e, Decidable (B s e)] (s : State σ τ α) (a : Action ρ ρ' ε ε') :
    Decidable (Permits A B s a) := by
  rcases a with ⟨⟩ <;> dsimp only [Permits] <;> infer_instance

end Step

/-! ### What the loops rely on -/

/-- `HasByte` and `HasRoom` are what the functions that ask for a byte or for room promise; `received`
and `sent` are the bytes so far. -/
structure View (σ α : Type*) where
  Valid : σ → Prop
  HasByte : σ → Prop
  HasRoom : σ → Prop
  received : σ → List α
  sent : σ → List α

/-- `got` has been received and `put` has been sent. -/
structure View.Moves (v : View σ α) (got put : List α) (s t : σ) : Prop where
  valid : v.Valid t
  received : v.received t = v.received s ++ got
  sent : v.sent t = v.sent s ++ put

structure Contract (p : Port σ α ρ ε) (v : View σ α) (A : σ → ε → Prop) : Prop where
  rxAvailable : ∀ {s t r b}, v.Valid s → p.rxAvailable s r = some (b, t) →
    v.Moves [] [] s t ∧ (b = true → v.HasByte t)
  rxReceiveByte : ∀ {s t r a}, v.Valid s → v.HasByte s → p.rxReceiveByte s r = some (a, t) →
    v.Moves [a] [] s t
  txAvailable : ∀ {s t r b}, v.Valid s → p.txAvailable s r = some (b, t) →
    v.Moves [] [] s t ∧ (b = true → v.HasRoom t)
  txSendByte : ∀ {s t r a}, v.Valid s → v.HasRoom s → p.txSendByte s a r = some t →
    v.Moves [] [a] s t
  event : ∀ {s t e}, v.Valid s → A s e → p.event s e = some t → v.Moves [] [] s t
  hasByte : ∀ {s t e}, v.Valid s → A s e → p.isCall e = false → p.event s e = some t →
    v.HasByte s → v.HasByte t
  hasRoom : ∀ {s t e}, v.Valid s → A s e → p.isCall e = false → p.event s e = some t →
    v.HasRoom s → v.HasRoom t

/-- The promises that the next call relies on. -/
def Stage.Promised (stage : Stage α) (v : View σ α) (w : View τ α) (s : State σ τ α) : Prop :=
  match stage with
  | .rest => True
  | .readable _ => True
  | .writable .toRight => v.HasByte s.left
  | .writable .toLeft => w.HasByte s.right
  | .receive .toRight => v.HasByte s.left ∧ w.HasRoom s.right
  | .receive .toLeft => w.HasByte s.right ∧ v.HasRoom s.left
  | .send .toRight _ => w.HasRoom s.right
  | .send .toLeft _ => v.HasRoom s.left

/-- What is received on one side is sent on the other, in order, up to the byte that the loop holds. -/
structure Passing (v : View σ α) (w : View τ α) (s : State σ τ α) : Prop where
  left : v.Valid s.left
  right : w.Valid s.right
  promised : s.stage.Promised v w s
  toRight : v.received s.left = w.sent s.right ++ s.stage.hand .toRight
  toLeft : w.received s.right = v.sent s.left ++ s.stage.hand .toLeft

section Run

variable {p : Port σ α ρ ε} {q : Port τ α ρ' ε'} {v : View σ α} {w : View τ α}
  {A : σ → ε → Prop} {B : τ → ε' → Prop} {s t : State σ τ α}

theorem Stage.promised_of_isRest {stage : Stage α} (h : stage.isRest = true) :
    stage.Promised v w s := by
  cases stage with
  | rest => trivial
  | _ => cases h

theorem Stage.Promised.mono {stage : Stage α} (h : stage.Promised v w s)
    (hleft : v.HasByte s.left → v.HasByte t.left) (hleft' : v.HasRoom s.left → v.HasRoom t.left)
    (hright : w.HasByte s.right → w.HasByte t.right)
    (hright' : w.HasRoom s.right → w.HasRoom t.right) : stage.Promised v w t := by
  cases stage with
  | rest => trivial
  | readable d => trivial
  | writable d =>
      cases d with
      | toRight => exact hleft h
      | toLeft => exact hright h
  | receive d =>
      cases d with
      | toRight => exact ⟨hleft h.1, hright' h.2⟩
      | toLeft => exact ⟨hright h.1, hleft' h.2⟩
  | send d a =>
      cases d with
      | toRight => exact hright' h
      | toLeft => exact hleft' h

namespace Passing

theorem moveLeft (h : Passing v w s) {got put : List α} {l : σ} {stage : Stage α}
    (hm : v.Moves got put s.left l) (hp : stage.Promised v w ⟨l, s.right, stage⟩)
    (hgot : s.stage.hand .toRight ++ got = stage.hand .toRight)
    (hput : s.stage.hand .toLeft = put ++ stage.hand .toLeft) :
    Passing v w ⟨l, s.right, stage⟩ where
  left := hm.valid
  right := h.right
  promised := hp
  toRight := by rw [hm.received, h.toRight, List.append_assoc, hgot]
  toLeft := by rw [hm.sent, h.toLeft, hput, List.append_assoc]

theorem moveRight (h : Passing v w s) {got put : List α} {r : τ} {stage : Stage α}
    (hm : w.Moves got put s.right r) (hp : stage.Promised v w ⟨s.left, r, stage⟩)
    (hgot : s.stage.hand .toLeft ++ got = stage.hand .toLeft)
    (hput : s.stage.hand .toRight = put ++ stage.hand .toRight) :
    Passing v w ⟨s.left, r, stage⟩ where
  left := h.left
  right := hm.valid
  promised := hp
  toRight := by rw [hm.sent, h.toRight, hput, List.append_assoc]
  toLeft := by rw [hm.received, h.toLeft, List.append_assoc, hgot]

theorem callLeft (h : Passing v w s) (hp : Contract p v A) {r : ρ}
    (hs : callLeft p s r = some t) : Passing v w t := by
  obtain ⟨l, x, stage⟩ := s
  have hpromised := h.promised
  cases stage with
  | rest => cases hs
  | readable d =>
      cases d with
      | toLeft => cases hs
      | toRight =>
          obtain ⟨⟨b, l'⟩, hc, rfl⟩ := Option.map_eq_some_iff.mp hs
          obtain ⟨hm, hbyte⟩ := hp.rxAvailable h.left hc
          cases b with
          | false => exact h.moveLeft hm trivial rfl rfl
          | true => exact h.moveLeft hm (hbyte rfl) rfl rfl
  | writable d =>
      cases d with
      | toRight => cases hs
      | toLeft =>
          obtain ⟨⟨b, l'⟩, hc, rfl⟩ := Option.map_eq_some_iff.mp hs
          obtain ⟨hm, hroom⟩ := hp.txAvailable h.left hc
          cases b with
          | false => exact h.moveLeft hm trivial rfl rfl
          | true => exact h.moveLeft hm ⟨hpromised, hroom rfl⟩ rfl rfl
  | receive d =>
      cases d with
      | toLeft => cases hs
      | toRight =>
          obtain ⟨⟨a, l'⟩, hc, rfl⟩ := Option.map_eq_some_iff.mp hs
          exact h.moveLeft (hp.rxReceiveByte h.left hpromised.1 hc) hpromised.2 rfl rfl
  | send d a =>
      cases d with
      | toRight => cases hs
      | toLeft =>
          obtain ⟨l', hc, rfl⟩ := Option.map_eq_some_iff.mp hs
          exact h.moveLeft (hp.txSendByte h.left hpromised hc) trivial rfl rfl

theorem callRight (h : Passing v w s) (hq : Contract q w B) {r : ρ'}
    (hs : callRight q s r = some t) : Passing v w t := by
  obtain ⟨l, x, stage⟩ := s
  have hpromised := h.promised
  cases stage with
  | rest => cases hs
  | readable d =>
      cases d with
      | toRight => cases hs
      | toLeft =>
          obtain ⟨⟨b, x'⟩, hc, rfl⟩ := Option.map_eq_some_iff.mp hs
          obtain ⟨hm, hbyte⟩ := hq.rxAvailable h.right hc
          cases b with
          | false => exact h.moveRight hm trivial rfl rfl
          | true => exact h.moveRight hm (hbyte rfl) rfl rfl
  | writable d =>
      cases d with
      | toLeft => cases hs
      | toRight =>
          obtain ⟨⟨b, x'⟩, hc, rfl⟩ := Option.map_eq_some_iff.mp hs
          obtain ⟨hm, hroom⟩ := hq.txAvailable h.right hc
          cases b with
          | false => exact h.moveRight hm trivial rfl rfl
          | true => exact h.moveRight hm ⟨hpromised, hroom rfl⟩ rfl rfl
  | receive d =>
      cases d with
      | toRight => cases hs
      | toLeft =>
          obtain ⟨⟨a, x'⟩, hc, rfl⟩ := Option.map_eq_some_iff.mp hs
          exact h.moveRight (hq.rxReceiveByte h.right hpromised.1 hc) hpromised.2 rfl rfl
  | send d a =>
      cases d with
      | toLeft => cases hs
      | toRight =>
          obtain ⟨x', hc, rfl⟩ := Option.map_eq_some_iff.mp hs
          exact h.moveRight (hq.txSendByte h.right hpromised hc) trivial rfl rfl

/-- The promises are kept by what a port does between two calls. -/
theorem leftEvent (h : Passing v w s) (hp : Contract p v A) {e : ε} {l : σ} (ha : A s.left e)
    (hrest : p.isCall e = true → s.stage.isRest = true) (he : p.event s.left e = some l) :
    Passing v w { s with left := l } := by
  refine h.moveLeft (hp.event h.left ha he) ?_ (List.append_nil _) rfl
  by_cases hc : p.isCall e = true
  · exact Stage.promised_of_isRest (hrest hc)
  · have hcall := Bool.eq_false_iff.mpr hc
    exact h.promised.mono (hp.hasByte h.left ha hcall he) (hp.hasRoom h.left ha hcall he) id id

theorem rightEvent (h : Passing v w s) (hq : Contract q w B) {e : ε'} {x : τ} (hb : B s.right e)
    (hrest : q.isCall e = true → s.stage.isRest = true) (he : q.event s.right e = some x) :
    Passing v w { s with right := x } := by
  refine h.moveRight (hq.event h.right hb he) ?_ (List.append_nil _) rfl
  by_cases hc : q.isCall e = true
  · exact Stage.promised_of_isRest (hrest hc)
  · have hcall := Bool.eq_false_iff.mpr hc
    exact h.promised.mono id id (hq.hasByte h.right hb hcall he) (hq.hasRoom h.right hb hcall he)

theorem step (h : Passing v w s) (hp : Contract p v A) (hq : Contract q w B)
    {a : Action ρ ρ' ε ε'} (ha : Permits A B s a) (hs : step p q s a = some t) :
    Passing v w t := by
  cases a with
  | enter =>
      simp only [Relay.step] at hs
      split_ifs at hs with hrest
      obtain rfl := Option.some.inj hs
      obtain ⟨l, x, stage⟩ := s
      cases stage with
      | rest => exact ⟨h.left, h.right, trivial, h.toRight, h.toLeft⟩
      | _ => cases hrest.2
  | left r =>
      simp only [Relay.step] at hs
      split_ifs at hs
      exact h.callLeft hp hs
  | right r =>
      simp only [Relay.step] at hs
      split_ifs at hs
      exact h.callRight hq hs
  | leftEvent e =>
      simp only [Relay.step] at hs
      split_ifs at hs with hrest
      obtain ⟨l, he, rfl⟩ := Option.map_eq_some_iff.mp hs
      exact h.leftEvent hp ha (fun hc => (hrest hc).2) he
  | rightEvent e =>
      simp only [Relay.step] at hs
      split_ifs at hs with hrest
      obtain ⟨x, he, rfl⟩ := Option.map_eq_some_iff.mp hs
      exact h.rightEvent hq ha (fun hc => (hrest hc).2) he

theorem run (h : Passing v w s) (hp : Contract p v A) (hq : Contract q w B)
    (hr : Run (Relay.step p q) (Permits A B) s t) : Passing v w t :=
  hr.invariant h fun _ _ _ h ha hs => h.step hp hq ha hs

end Passing

end Run

end WixelSdk.Relay
