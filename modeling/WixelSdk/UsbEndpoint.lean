import Mathlib.Data.List.Basic
import Mathlib.Tactic.SplitIfs

/-!
# A double-buffered IN endpoint

The FIFO of an IN endpoint with two packet buffers: the packets that wait for the host and the bytes
loaded since the last of them. PKT_PRESENT says that a packet waits, INPKT_RDY that both buffers
hold one. A byte that is written or a packet that is committed in that state is lost and counted in
`overruns`. `received` are the packets that the host has read.
-/

namespace WixelSdk.Usb

structure EndpointIn where
  received : List (List UInt8)
  waiting : List (List UInt8)
  loaded : List UInt8
  overruns : ℕ
  deriving DecidableEq, Repr

namespace EndpointIn

variable (e : EndpointIn)

def empty : EndpointIn := ⟨[], [], [], 0⟩

def pktPresent : Bool := !e.waiting.isEmpty

def inpktRdy : Bool := decide (2 ≤ e.waiting.length)

def write (byte : UInt8) : EndpointIn :=
  if e.inpktRdy then { e with overruns := e.overruns + 1 }
  else { e with loaded := e.loaded ++ [byte] }

def commit : EndpointIn :=
  if e.inpktRdy then { e with overruns := e.overruns + 1 }
  else { e with waiting := e.waiting ++ [e.loaded], loaded := [] }

def read : EndpointIn :=
  match e.waiting with
  | [] => e
  | packet :: waiting => { e with received := e.received ++ [packet], waiting := waiting }

def committed : List (List UInt8) := e.received ++ e.waiting

/-- How many more bytes the buffers hold. -/
def room : ℕ := 128 - (e.loaded.length + 64 * e.waiting.length)

/-- The host has read packets and nothing else has happened. -/
structure ReadFrom (e f : EndpointIn) : Prop where
  committed : f.committed = e.committed
  waiting : f.waiting.length ≤ e.waiting.length
  loaded : f.loaded = e.loaded
  overruns : f.overruns = e.overruns

namespace ReadFrom

variable {e}

theorem refl : ReadFrom e e := ⟨rfl, Nat.le_refl _, rfl, rfl⟩

theorem trans {f g : EndpointIn} (h : ReadFrom e f) (h' : ReadFrom f g) : ReadFrom e g where
  committed := h'.committed.trans h.committed
  waiting := Nat.le_trans h'.waiting h.waiting
  loaded := h'.loaded.trans h.loaded
  overruns := h'.overruns.trans h.overruns

theorem read : ReadFrom e e.read := by
  unfold EndpointIn.read
  cases hw : e.waiting with
  | nil => exact .refl
  | cons packet waiting =>
      refine ⟨?_, ?_, rfl, rfl⟩
      · simp only [EndpointIn.committed, hw, List.append_assoc, List.singleton_append]
      · rw [hw]
        exact Nat.le_succ _

end ReadFrom

variable {e}

theorem write_of_free (hw : e.waiting.length < 2) (byte : UInt8) :
    e.write byte = { e with loaded := e.loaded ++ [byte] } := by
  have hr : ¬ e.inpktRdy = true := fun hr => by
    have hle := of_decide_eq_true hr
    omega
  rw [write, if_neg hr]

theorem commit_of_free (hw : e.waiting.length < 2) :
    e.commit = { e with waiting := e.waiting ++ [e.loaded], loaded := [] } := by
  have hr : ¬ e.inpktRdy = true := fun hr => by
    have hle := of_decide_eq_true hr
    omega
  rw [commit, if_neg hr]

theorem committed_commit (e : EndpointIn) : e.committed <+: e.commit.committed := by
  unfold commit
  split_ifs
  · exact List.prefix_rfl
  · refine ⟨[e.loaded], ?_⟩
    unfold committed
    exact List.append_assoc _ _ _

theorem committed_write (e : EndpointIn) (byte : UInt8) :
    (e.write byte).committed = e.committed := by
  unfold write
  split_ifs <;> rfl

end EndpointIn
end WixelSdk.Usb
