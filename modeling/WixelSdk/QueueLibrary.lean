import WixelSdk.BoundedFifo

/-!
# The queue library

`queue.c`: circular queues of 5-byte tuples. A tuple is linked to a queue, and the calls take the
tuple. `head` is the slot before the oldest element and `tail` that of the newest, so a queue of
`QContSize` slots holds at most `QContSize - 1` tuples. `Fifos` is what the queues stand for: a
bounded list for each of them.
-/

namespace WixelSdk.QueueLibrary
open WixelSdk.Ring

def qTupleSize : ℕ := 5

abbrev Bytes := Fin qTupleSize → UInt8

structure QTuple (κ : Type*) where
  caller : Option κ
  bytes : Bytes

/-- `Qdata` is what is stored in the slots; their `caller` is never used. -/
structure Queue where
  Qdata : ℕ → Bytes
  head : ℕ
  tail : ℕ

/-- The Queue and QTuple objects at their addresses. -/
structure Memory (κ τ : Type*) where
  queues : κ → Queue
  tuples : τ → QTuple κ

/-- A call with its arguments; `none` is the null pointer. The last one stands for the application
that writes to a tuple. -/
inductive Call (κ τ : Type*)
  | initQueue (queue : Option κ)
  | linkQueue (queue : Option κ) (tuple : Option τ)
  | qPush (p : Option τ)
  | qPushForce (p : Option τ)
  | qPop (p : Option τ)
  | setBytes (p : τ) (bytes : Bytes)

namespace Queue

variable (qContSize : ℕ) (queue : Queue) (bytes : Bytes)

def next : ℕ := (queue.tail + 1) % qContSize

def init : Queue := { queue with head := 0, tail := 0 }

def append : Queue :=
  { queue with
    Qdata := Function.update queue.Qdata (queue.next qContSize) bytes
    tail := queue.next qContSize }

def advanceHead : Queue := { queue with head := (queue.head + 1) % qContSize }

def push : Bool × Queue :=
  if queue.next qContSize ≠ queue.head then (true, queue.append qContSize bytes)
  else (false, queue)

def pushForce : Bool × Queue :=
  if queue.next qContSize ≠ queue.head then (true, queue.append qContSize bytes)
  else (true, (queue.append qContSize bytes).advanceHead qContSize)

def pop : Option Bytes × Queue :=
  if queue.head ≠ queue.tail then
    (some (queue.Qdata (queue.advanceHead qContSize).head), queue.advanceHead qContSize)
  else (none, queue)

end Queue

namespace Memory

variable {κ τ : Type*} [DecidableEq κ] [DecidableEq τ] (qContSize : ℕ) (m : Memory κ τ)

def setQueue (queue : κ) (value : Queue) : Memory κ τ :=
  { m with queues := Function.update m.queues queue value }

def setTuple (p : τ) (value : QTuple κ) : Memory κ τ :=
  { m with tuples := Function.update m.tuples p value }

/-- The tuple and the queue of a call that takes a tuple. -/
def linked (p : Option τ) : Option (τ × κ) := p.bind fun p => (m.tuples p).caller.map (p, ·)

def initQueue : Option κ → Bool × Memory κ τ
  | some queue => (true, m.setQueue queue (m.queues queue).init)
  | none => (false, m)

def linkQueue : Option κ → Option τ → Bool × Memory κ τ
  | some queue, some tuple =>
      (true, m.setTuple tuple { m.tuples tuple with caller := some queue })
  | _, _ => (false, m)

def qPush (p : Option τ) : Bool × Memory κ τ :=
  match m.linked p with
  | some (p, queue) =>
      let result := (m.queues queue).push qContSize (m.tuples p).bytes
      (result.1, m.setQueue queue result.2)
  | none => (false, m)

def qPushForce (p : Option τ) : Bool × Memory κ τ :=
  match m.linked p with
  | some (p, queue) =>
      let result := (m.queues queue).pushForce qContSize (m.tuples p).bytes
      (result.1, m.setQueue queue result.2)
  | none => (false, m)

def qPop (p : Option τ) : Bool × Memory κ τ :=
  match m.linked p with
  | some (p, queue) =>
      match (m.queues queue).pop qContSize with
      | (some bytes, rest) =>
          (true, (m.setQueue queue rest).setTuple p { m.tuples p with bytes := bytes })
      | (none, _) => (false, m)
  | none => (false, m)

def call (m : Memory κ τ) : Call κ τ → Bool × Memory κ τ
  | .initQueue queue => m.initQueue queue
  | .linkQueue queue tuple => m.linkQueue queue tuple
  | .qPush p => m.qPush qContSize p
  | .qPushForce p => m.qPushForce qContSize p
  | .qPop p => m.qPop qContSize p
  | .setBytes p bytes => (true, m.setTuple p { m.tuples p with bytes := bytes })

def calls (m : Memory κ τ) : List (Call κ τ) → List Bool × Memory κ τ
  | [] => ([], m)
  | a :: as =>
      ((m.call qContSize a).1 :: ((m.call qContSize a).2.calls as).1,
        ((m.call qContSize a).2.calls as).2)

def initAll : Memory κ τ := { m with queues := fun queue => (m.queues queue).init }

def target : Call κ τ → Option κ
  | .initQueue queue => queue
  | .qPush p | .qPushForce p | .qPop p => (m.linked p).map Prod.snd
  | _ => none

end Memory

/-! ### What the queues stand for -/

structure Fifos (κ τ : Type*) (capacity : ℕ) where
  contents : κ → BoundedFifo Bytes capacity
  tuples : τ → QTuple κ

namespace Fifos

variable {κ τ : Type*} [DecidableEq κ] [DecidableEq τ] {capacity : ℕ} (f : Fifos κ τ capacity)

def setContents (queue : κ) (q : BoundedFifo Bytes capacity) : Fifos κ τ capacity :=
  { f with contents := Function.update f.contents queue q }

def setTuple (p : τ) (value : QTuple κ) : Fifos κ τ capacity :=
  { f with tuples := Function.update f.tuples p value }

def linked (p : Option τ) : Option (τ × κ) := p.bind fun p => (f.tuples p).caller.map (p, ·)

def call : Call κ τ → Bool × Fifos κ τ capacity
  | .initQueue (some queue) => (true, f.setContents queue .empty)
  | .linkQueue (some queue) (some tuple) =>
      (true, f.setTuple tuple { f.tuples tuple with caller := some queue })
  | .qPush p =>
      match f.linked p with
      | some (p, queue) =>
          (((f.contents queue).push (f.tuples p).bytes).1,
            f.setContents queue ((f.contents queue).push (f.tuples p).bytes).2)
      | none => (false, f)
  | .qPushForce p =>
      match f.linked p with
      | some (p, queue) =>
          (true, f.setContents queue ((f.contents queue).pushForce (f.tuples p).bytes))
      | none => (false, f)
  | .qPop p =>
      match f.linked p with
      | some (p, queue) =>
          match (f.contents queue).pop with
          | (some bytes, rest) =>
              (true, (f.setContents queue rest).setTuple p { f.tuples p with bytes := bytes })
          | (none, _) => (false, f)
      | none => (false, f)
  | .setBytes p bytes => (true, f.setTuple p { f.tuples p with bytes := bytes })
  | _ => (false, f)

def calls (f : Fifos κ τ capacity) : List (Call κ τ) → List Bool × Fifos κ τ capacity
  | [] => ([], f)
  | a :: as => ((f.call a).1 :: ((f.call a).2.calls as).1, ((f.call a).2.calls as).2)

end Fifos

/-! ### The refinement -/

structure Queue.Represents (N : ℕ) (queue : Queue) (q : BoundedFifo Bytes (N - 1)) : Prop where
  head_lt : queue.head < N
  tail_lt : queue.tail < N
  holds : Holds N queue.Qdata (Ring.next N queue.head) (Ring.next N queue.tail) q

namespace Queue.Represents

variable {N : ℕ} {queue : Queue} {q : BoundedFifo Bytes (N - 1)}

theorem init (hN : 2 ≤ N) (queue : Queue) : Represents N queue.init .empty where
  head_lt := by
    change 0 < N
    omega
  tail_lt := by
    change 0 < N
    omega
  holds := .empty (next_lt (by change 0 < N; omega))

theorem next_eq (h : queue.Represents N q) : queue.next N = Ring.next N queue.tail :=
  succ_mod_eq_next h.tail_lt

theorem full_iff (h : queue.Represents N q) :
    queue.next N = queue.head ↔
      Ring.next N (Ring.next N queue.tail) = Ring.next N queue.head := by
  rw [h.next_eq, next_inj]

theorem append (h : queue.Represents N q) (hfull : queue.next N ≠ queue.head) (bytes : Bytes)
    {q' : BoundedFifo Bytes (N - 1)} (hq : q'.list = q.list ++ [bytes]) :
    (queue.append N bytes).Represents N q' := by
  have hring := fun he => hfull (h.full_iff.mpr he)
  have happend := h.holds.push hring bytes hq
  refine ⟨h.head_lt, ?_, ?_⟩
  · change queue.next N < N
    rw [h.next_eq]
    exact next_lt h.tail_lt
  · change Holds N (Function.update queue.Qdata (queue.next N) bytes) _
      (Ring.next N (queue.next N)) q'
    rw [h.next_eq]
    exact happend

theorem push (h : queue.Represents N q) (hN : 2 ≤ N) (bytes : Bytes) :
    (queue.push N bytes).1 = (q.push bytes).1 ∧
      (queue.push N bytes).2.Represents N (q.push bytes).2 := by
  unfold Queue.push
  by_cases hfull : queue.next N ≠ queue.head
  · have hlt := h.holds.lt_of_not_full hN fun he => hfull (h.full_iff.mpr he)
    obtain ⟨htrue, hlist⟩ := q.push_of_lt bytes hlt
    rw [if_pos hfull]
    exact ⟨htrue.symm, h.append hfull bytes hlist⟩
  · have hlen := (h.holds.full_iff hN).mp (h.full_iff.mp (not_not.mp hfull))
    rw [if_neg hfull, q.push_of_full bytes hlen]
    exact ⟨rfl, h⟩

theorem pushForce (h : queue.Represents N q) (hN : 2 ≤ N) (bytes : Bytes) :
    (queue.pushForce N bytes).1 = true ∧
      (queue.pushForce N bytes).2.Represents N (q.pushForce bytes) := by
  unfold Queue.pushForce
  by_cases hfull : queue.next N ≠ queue.head
  · have hlt := h.holds.lt_of_not_full hN fun he => hfull (h.full_iff.mpr he)
    rw [if_pos hfull]
    exact ⟨rfl, h.append hfull bytes (q.pushForce_of_lt bytes hlt)⟩
  · have hring := h.full_iff.mp (not_not.mp hfull)
    have hforce := h.holds.pushForce hN hring bytes
    rw [if_neg hfull]
    refine ⟨rfl, ?_, ?_, ?_⟩
    · change (queue.head + 1) % N < N
      exact Nat.mod_lt _ (by omega)
    · change queue.next N < N
      rw [h.next_eq]
      exact next_lt h.tail_lt
    · change Holds N (Function.update queue.Qdata (queue.next N) bytes)
        (Ring.next N ((queue.head + 1) % N)) (Ring.next N (queue.next N)) _
      rw [h.next_eq, succ_mod_eq_next h.head_lt]
      exact hforce

theorem pop (h : queue.Represents N q) :
    (queue.pop N).1 = q.pop.1 ∧ (queue.pop N).2.Represents N q.pop.2 := by
  unfold Queue.pop
  by_cases hne : queue.head ≠ queue.tail
  · have hring : Ring.next N queue.head ≠ Ring.next N queue.tail :=
      fun he => hne (next_inj.mp he)
    obtain ⟨hholds, hfirst⟩ := h.holds.pop hring
    have hhead : (queue.advanceHead N).head = Ring.next N queue.head :=
      succ_mod_eq_next h.head_lt
    rw [if_pos hne]
    refine ⟨?_, ?_, h.tail_lt, ?_⟩
    · rw [hfirst, hhead]
    · rw [hhead]
      exact next_lt h.head_lt
    · rw [hhead]
      exact hholds
  · have hnil := h.holds.nil_iff.mp (congrArg _ (not_not.mp hne))
    rw [if_neg hne]
    refine ⟨?_, ?_⟩
    · change none = q.list.head?
      rw [hnil]
      rfl
    · have hsame : q.pop.2 = q := by
        cases q
        subst hnil
        rfl
      rw [hsame]
      exact h

end Queue.Represents

/-- Each queue holds its list, and the tuples are the same. -/
structure Represents {κ τ : Type*} (N : ℕ) (m : Memory κ τ) (f : Fifos κ τ (N - 1)) : Prop where
  tuples : m.tuples = f.tuples
  queues : ∀ queue, (m.queues queue).Represents N (f.contents queue)

namespace Represents

variable {κ τ : Type*} {N : ℕ} {m : Memory κ τ} {f : Fifos κ τ (N - 1)}

theorem setQueue [DecidableEq κ] (h : Represents N m f) {queue : κ} {value : Queue}
    {q : BoundedFifo Bytes (N - 1)} (hq : value.Represents N q) :
    Represents N (m.setQueue queue value) (f.setContents queue q) where
  tuples := h.tuples
  queues other := by
    by_cases ho : other = queue
    · subst ho
      change (Function.update m.queues other value other).Represents N
        (Function.update f.contents other q other)
      rw [Function.update_self, Function.update_self]
      exact hq
    · change (Function.update m.queues queue value other).Represents N
        (Function.update f.contents queue q other)
      rw [Function.update_of_ne ho, Function.update_of_ne ho]
      exact h.queues other

theorem setTuple [DecidableEq τ] (h : Represents N m f) (p : τ) (value : QTuple κ) :
    Represents N (m.setTuple p value) (f.setTuple p value) where
  tuples := by
    change Function.update m.tuples p value = Function.update f.tuples p value
    rw [h.tuples]
  queues := h.queues

theorem linked (h : Represents N m f) (p : Option τ) : m.linked p = f.linked p := by
  unfold Memory.linked Fifos.linked
  rw [h.tuples]

variable [DecidableEq κ] [DecidableEq τ]

theorem initQueue (h : Represents N m f) (hN : 2 ≤ N) (queue : Option κ) :
    (m.initQueue queue).1 = (f.call (.initQueue queue)).1 ∧
      Represents N (m.initQueue queue).2 (f.call (.initQueue queue)).2 := by
  cases queue with
  | none => exact ⟨rfl, h⟩
  | some queue => exact ⟨rfl, h.setQueue (.init hN _)⟩

theorem linkQueue (h : Represents N m f) (queue : Option κ) (tuple : Option τ) :
    (m.linkQueue queue tuple).1 = (f.call (.linkQueue queue tuple)).1 ∧
      Represents N (m.linkQueue queue tuple).2 (f.call (.linkQueue queue tuple)).2 := by
  rcases queue with _ | queue <;> rcases tuple with _ | tuple
  · exact ⟨rfl, h⟩
  · exact ⟨rfl, h⟩
  · exact ⟨rfl, h⟩
  · refine ⟨rfl, ?_⟩
    change Represents N (m.setTuple tuple { m.tuples tuple with caller := some queue })
      (f.setTuple tuple { f.tuples tuple with caller := some queue })
    rw [h.tuples]
    exact h.setTuple _ _

theorem qPush (h : Represents N m f) (hN : 2 ≤ N) (p : Option τ) :
    (m.qPush N p).1 = (f.call (.qPush p)).1 ∧
      Represents N (m.qPush N p).2 (f.call (.qPush p)).2 := by
  rcases hl : f.linked p with _ | ⟨p, queue⟩ <;>
    simp only [Memory.qPush, Fifos.call, h.linked, h.tuples, hl]
  · exact ⟨trivial, h⟩
  · obtain ⟨hresult, hqueue⟩ := (h.queues queue).push hN (f.tuples p).bytes
    exact ⟨hresult, h.setQueue hqueue⟩

theorem qPushForce (h : Represents N m f) (hN : 2 ≤ N) (p : Option τ) :
    (m.qPushForce N p).1 = (f.call (.qPushForce p)).1 ∧
      Represents N (m.qPushForce N p).2 (f.call (.qPushForce p)).2 := by
  rcases hl : f.linked p with _ | ⟨p, queue⟩ <;>
    simp only [Memory.qPushForce, Fifos.call, h.linked, h.tuples, hl]
  · exact ⟨trivial, h⟩
  · obtain ⟨hresult, hqueue⟩ := (h.queues queue).pushForce hN (f.tuples p).bytes
    exact ⟨hresult, h.setQueue hqueue⟩

theorem qPop (h : Represents N m f) (p : Option τ) :
    (m.qPop N p).1 = (f.call (.qPop p)).1 ∧
      Represents N (m.qPop N p).2 (f.call (.qPop p)).2 := by
  rcases hl : f.linked p with _ | ⟨p, queue⟩ <;>
    simp only [Memory.qPop, Fifos.call, h.linked, h.tuples, hl]
  · exact ⟨trivial, h⟩
  · obtain ⟨hresult, hqueue⟩ := (h.queues queue).pop
    rcases hpop : (m.queues queue).pop N with ⟨_ | bytes, rest⟩ <;>
      rcases hspec : (f.contents queue).pop with ⟨_ | bytes', rest'⟩ <;>
      rw [hpop, hspec] at hresult hqueue
    · exact ⟨rfl, h⟩
    · cases hresult
    · cases hresult
    · cases hresult
      exact ⟨rfl, (h.setQueue hqueue).setTuple p _⟩

/-- Each call returns what the lists say, and the queues go on holding them. -/
theorem call (h : Represents N m f) (hN : 2 ≤ N) (a : Call κ τ) :
    (m.call N a).1 = (f.call a).1 ∧ Represents N (m.call N a).2 (f.call a).2 := by
  cases a with
  | initQueue queue => exact h.initQueue hN queue
  | linkQueue queue tuple => exact h.linkQueue queue tuple
  | qPush p => exact h.qPush hN p
  | qPushForce p => exact h.qPushForce hN p
  | qPop p => exact h.qPop p
  | setBytes p bytes =>
    refine ⟨rfl, ?_⟩
    change Represents N (m.setTuple p { m.tuples p with bytes := bytes })
      (f.setTuple p { f.tuples p with bytes := bytes })
    rw [h.tuples]
    exact h.setTuple _ _

theorem calls (h : Represents N m f) (hN : 2 ≤ N) (as : List (Call κ τ)) :
    (m.calls N as).1 = (f.calls as).1 ∧ Represents N (m.calls N as).2 (f.calls as).2 := by
  induction as generalizing m f with
  | nil => exact ⟨rfl, h⟩
  | cons a as ih =>
    obtain ⟨hresult, hnext⟩ := h.call hN a
    obtain ⟨hresults, hlast⟩ := ih hnext
    exact ⟨congrArg₂ List.cons hresult hresults, hlast⟩

omit [DecidableEq κ] [DecidableEq τ] in
theorem initAll (hN : 2 ≤ N) (m : Memory κ τ) :
    Represents N m.initAll ⟨fun _ => .empty, m.tuples⟩ where
  tuples := rfl
  queues queue := .init hN (m.queues queue)

end Represents

section Frame

variable {κ τ : Type*} [DecidableEq κ] {N : ℕ} (m : Memory κ τ) {queue : κ}

theorem Memory.setQueue_queues {other : κ} (value : Queue) (ho : other ≠ queue) :
    (m.setQueue other value).queues queue = m.queues queue :=
  Function.update_of_ne ho.symm _ _

theorem Memory.qPush_queues (p : Option τ) (hp : (m.linked p).map Prod.snd ≠ some queue) :
    (m.qPush N p).2.queues queue = m.queues queue := by
  rcases hl : m.linked p with _ | ⟨p, other⟩ <;> rw [hl] at hp <;> simp only [qPush, hl]
  exact m.setQueue_queues _ fun he => hp (congrArg some he)

theorem Memory.qPushForce_queues (p : Option τ)
    (hp : (m.linked p).map Prod.snd ≠ some queue) :
    (m.qPushForce N p).2.queues queue = m.queues queue := by
  rcases hl : m.linked p with _ | ⟨p, other⟩ <;> rw [hl] at hp <;> simp only [qPushForce, hl]
  exact m.setQueue_queues _ fun he => hp (congrArg some he)

variable [DecidableEq τ]

theorem Memory.qPop_queues (p : Option τ) (hp : (m.linked p).map Prod.snd ≠ some queue) :
    (m.qPop N p).2.queues queue = m.queues queue := by
  rcases hl : m.linked p with _ | ⟨p, other⟩ <;> rw [hl] at hp <;> simp only [qPop, hl]
  rcases hpop : (m.queues other).pop N with ⟨_ | bytes, rest⟩
  · rfl
  · exact m.setQueue_queues _ fun he => hp (congrArg some he)

/-- A call changes no queue but the one that its tuple is linked to. -/
theorem Memory.call_queues (a : Call κ τ) (ha : m.target a ≠ some queue) :
    (m.call N a).2.queues queue = m.queues queue := by
  cases a with
  | initQueue other =>
    rcases other with _ | other
    · rfl
    · exact m.setQueue_queues _ fun he => ha (congrArg some he)
  | linkQueue other tuple =>
    rcases other with _ | other <;> rcases tuple with _ | tuple <;> rfl
  | qPush p => exact m.qPush_queues p ha
  | qPushForce p => exact m.qPushForce_queues p ha
  | qPop p => exact m.qPop_queues p ha
  | setBytes p bytes => rfl

end Frame

/-- Every sequence of calls on initialised queues does what it does on lists. -/
theorem calls_refine_fifos {κ τ : Type*} [DecidableEq κ] [DecidableEq τ] {N : ℕ} (hN : 2 ≤ N)
    (m : Memory κ τ) (as : List (Call κ τ)) :
    let f : Fifos κ τ (N - 1) := ⟨fun _ => .empty, m.tuples⟩
    (m.initAll.calls N as).1 = (f.calls as).1 ∧
      Represents N (m.initAll.calls N as).2 (f.calls as).2 ∧
      ∀ a queue, (m.initAll.calls N as).2.target a ≠ some queue →
        ((m.initAll.calls N as).2.call N a).2.queues queue =
          (m.initAll.calls N as).2.queues queue := by
  intro f
  obtain ⟨hresults, hlast⟩ := (Represents.initAll hN m).calls hN as
  exact ⟨hresults, hlast, fun a queue ha => Memory.call_queues _ a ha⟩

/-- One tuple linked to one of two queues of three slots. -/
theorem calls_refine_fifos_three :
    let m : Memory Bool Unit := ⟨fun _ => ⟨fun _ _ => 0, 0, 0⟩, fun _ => ⟨none, fun _ => 0⟩⟩
    let f : Fifos Bool Unit 2 := ⟨fun _ => .empty, m.tuples⟩
    let as : List (Call Bool Unit) :=
      [.linkQueue (some true) (some ()), .qPush (some ()), .qPush (some ()), .qPush (some ()),
        .setBytes () fun _ => 7, .qPushForce (some ()), .qPop (some ()), .qPop (some ())]
    2 ≤ 3 ∧
      (m.initAll.calls 3 as).1 = [true, true, true, false, true, true, true, true] ∧
      List.ofFn ((f.calls as).2.tuples ()).bytes = [7, 7, 7, 7, 7] ∧
      Represents 3 (m.initAll.calls 3 as).2 (f.calls as).2 := by
  intro m f as
  obtain ⟨hresults, hlast, -⟩ := calls_refine_fifos (by decide : 2 ≤ 3) m as
  exact ⟨by decide, hresults.trans (by decide +kernel), by decide +kernel, hlast⟩

end WixelSdk.QueueLibrary
