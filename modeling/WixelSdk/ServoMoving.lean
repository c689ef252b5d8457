import WixelSdk.Servo

/-!
# servosMoving

`servo.h` describes `servosMoving` by the positions and targets of the servos. The interrupt sets
`servosMovingFlag` from the distance that a servo has left before its step, so that a servo which
gets to its target with a whole step counts as moving for one more period.
-/

namespace WixelSdk.Servo
open Transition

namespace ServoData

variable {d : ServoData}

def left (d : ServoData) : ℕ := Nat.dist d.position.toNat d.target.toNat

theorem advance_moving_iff : d.advance.2 = true ↔
    d.speed ≠ 0 ∧ d.position ≠ 0 ∧ d.speed.toNat ≤ d.left := by
  by_cases hfree : d.speed = 0 ∨ d.position = 0
  · rw [advance_of_free hfree]
    refine iff_of_false Bool.false_ne_true fun h => ?_
    exact hfree.elim h.1 h.2.1
  · obtain ⟨hs, hp⟩ := not_or.mp hfree
    unfold left Nat.dist
    rcases Nat.lt_or_ge d.position.toNat d.target.toNat with hup | hdown
    · rw [advance_of_lt hs hp hup]
      split_ifs with hnear
      · exact iff_of_false not_false fun h => by omega
      · exact iff_of_true rfl ⟨hs, hp, by omega⟩
    · rw [advance_of_ge hs hp hdown]
      split_ifs with hnear
      · exact iff_of_false not_false fun h => by omega
      · exact iff_of_true rfl ⟨hs, hp, by omega⟩

theorem update_short_iff : d.update.position ≠ d.target ↔
    d.speed ≠ 0 ∧ d.position ≠ 0 ∧ d.speed.toNat < d.left := by
  rw [← not_iff_not, not_not, ← UInt16.toNat_inj]
  have hzero : d.update.position.toNat = d.target.toNat ↔
      Nat.dist d.update.position.toNat d.target.toNat = 0 :=
    ⟨fun h => h ▸ Nat.dist_self _, Nat.eq_of_dist_eq_zero⟩
  by_cases hfree : d.speed = 0 ∨ d.position = 0
  · refine iff_of_true ?_ fun h => hfree.elim h.1 h.2.1
    rw [d.moves_update.free hfree]
  · obtain ⟨hs, hp⟩ := not_or.mp hfree
    rw [hzero, d.moves_update.rate hs hp, left]
    simp only [ne_eq, hs, hp, not_false_eq_true, true_and]
    omega

end ServoData

namespace Servos

variable {s : Servos}

def servosMoving (s : Servos) : Bool := s.servosMovingFlag

/-- A limited servo is exactly one step from its target, and none is further away than its step. -/
def LandsExactly (s : Servos) : Prop :=
  (∃ i, (s.servoData i).speed ≠ 0 ∧ (s.servoData i).left = (s.servoData i).speed.toNat) ∧
    ∀ i, (s.servoData i).speed ≠ 0 → (s.servoData i).left ≤ (s.servoData i).speed.toNat

theorem Steady.left_eq_zero (h : s.Steady) {i : Fin maxServos}
    (hp : (s.servoData i).position = 0) : (s.servoData i).left = 0 := by
  rw [ServoData.left, hp, (h.sound i).zero.mp hp]
  exact Nat.dist_self _

theorem Steady.position_ne_zero (h : s.Steady) {i : Fin maxServos}
    (hs : (s.servoData i).speed ≠ 0)
    (hle : (s.servoData i).speed.toNat ≤ (s.servoData i).left) : (s.servoData i).position ≠ 0 := by
  intro hp
  rw [h.left_eq_zero hp] at hle
  exact hs ((ServoData.toNat_eq_zero _).mp (Nat.eq_zero_of_le_zero hle))

theorem isrT1_moving_iff (h : s.Steady) (hc : s.servoCounter = 6) :
    s.isrT1.servosMoving = true ↔ ∃ i, (s.servoData i).speed ≠ 0 ∧
      (s.servoData i).speed.toNat ≤ (s.servoData i).left := by
  have hflag := (isrT1_of_eq hc).2.1.not
  rw [Bool.not_eq_false] at hflag
  rw [servosMoving, hflag, not_forall]
  refine exists_congr fun i => ?_
  rw [Bool.not_eq_false, ServoData.advance_moving_iff]
  exact and_congr_right fun hs => and_iff_right_of_imp (h.position_ne_zero hs)

theorem isrT1_short_iff (h : s.Steady) (hc : s.servoCounter = 6) :
    (∃ i, (s.isrT1.servoData i).position ≠ (s.isrT1.servoData i).target) ↔
      ∃ i, (s.servoData i).speed ≠ 0 ∧ (s.servoData i).speed.toNat < (s.servoData i).left := by
  refine exists_congr fun i => ?_
  rw [(isrT1_of_eq hc).1, ServoData.update_target, ServoData.update_short_iff]
  exact and_congr_right fun hs =>
    and_iff_right_of_imp fun hlt => h.position_ne_zero hs (Nat.le_of_lt hlt)

/-- After every update of the positions, `servosMoving()` says whether some servo is short of its
target, unless the last servo to arrive did so with a whole step. -/
theorem servosMoving_iff {s₀ : Servos} {pins : List UInt8}
    (hr : Run step (fun _ _ => True) (s₀.servosStart (some pins)) s) (hc : s.servoCounter = 6) :
    (s.isrT1.servosMoving = true ↔
      ∃ i, (s.isrT1.servoData i).position ≠ (s.isrT1.servoData i).target) ↔ ¬ s.LandsExactly := by
  have h : s.Steady := Run.invariant hr (steady_servosStart s₀ pins)
    fun _ _ _ hs _ ht => Steady.step hs ht
  rw [isrT1_moving_iff h hc, isrT1_short_iff h hc]
  constructor
  · rintro hiff ⟨⟨i, hs, heq⟩, hle⟩
    obtain ⟨j, hsj, hlt⟩ := hiff.mp ⟨i, hs, Nat.le_of_eq heq.symm⟩
    exact Nat.not_lt.mpr (hle j hsj) hlt
  · intro hnot
    constructor
    · rintro ⟨i, hs, hle⟩
      by_contra hnone
      have hall : ∀ j, (s.servoData j).speed ≠ 0 →
          (s.servoData j).left ≤ (s.servoData j).speed.toNat := fun j hsj =>
        Nat.not_lt.mp fun hlt => hnone ⟨j, hsj, hlt⟩
      exact hnot ⟨⟨i, hs, Nat.le_antisymm (hall i hs) hle⟩, hall⟩
    · rintro ⟨i, hs, hlt⟩
      exact ⟨i, hs, Nat.le_of_lt hlt⟩

/-- One servo on its way from 1000 to `target`, by 500 in each period, before the seventh interrupt
of a period. -/
def onItsWay (target : UInt16) : List Action :=
  [.setSpeed 0 500, .setTarget 0 1000, .setTarget 0 target] ++ List.replicate 6 .interrupt

/-- The target is two steps away. -/
theorem servosMoving_two_steps : ∃ s : Servos,
    Run step (fun _ _ => True) (powerUp.servosStart (some [10])) s ∧ s.servoCounter = 6 ∧
    (s.isrT1.servosMoving = true ↔
      ∃ i, (s.isrT1.servoData i).position ≠ (s.isrT1.servoData i).target) := by
  have hrun : (exec step (fun _ _ => True) (powerUp.servosStart (some [10])) (onItsWay 2000)).map
      (fun s => (s.servoCounter, decide (∀ i, (s.servoData i).speed ≠ 0 →
        (s.servoData i).left ≤ (s.servoData i).speed.toNat))) = some (6, false) := by
    decide +kernel
  obtain ⟨s, hr, hobs⟩ := exists_run_of_exec hrun
  obtain ⟨hc, hfar⟩ := Prod.mk.inj hobs
  exact ⟨s, hr, hc, (servosMoving_iff hr hc).mpr fun hlands => of_decide_eq_false hfar hlands.2⟩

/-- The target is one step away: the servo gets there, and `servosMoving()` returns 1. -/
theorem servosMoving_at_target : ∃ s : Servos,
    Run step (fun _ _ => True) (powerUp.servosStart (some [10])) s ∧ s.servoCounter = 6 ∧
    s.isrT1.servosMoving = true ∧
    ∀ i, (s.isrT1.servoData i).position = (s.isrT1.servoData i).target := by
  have hrun : (exec step (fun _ _ => True) (powerUp.servosStart (some [10])) (onItsWay 1500)).map
      (fun s => (s.servoCounter, s.isrT1.servosMoving, decide (∀ i,
        (s.isrT1.servoData i).position = (s.isrT1.servoData i).target))) =
      some (6, true, true) := by decide +kernel
  obtain ⟨s, hr, hobs⟩ := exists_run_of_exec hrun
  obtain ⟨hc, hmoving, hthere⟩ : s.servoCounter = 6 ∧ s.isrT1.servosMoving = true ∧ decide (∀ i,
      (s.isrT1.servoData i).position = (s.isrT1.servoData i).target) = true := by
    simpa only [Prod.mk.injEq] using hobs
  exact ⟨s, hr, hc, hmoving, of_decide_eq_true hthere⟩

end Servos

end WixelSdk.Servo
