import Mathlib.Data.List.Basic
import Mathlib.Data.Set.Basic
import Mathlib.Tactic.SplitIfs

/-!
# Enumerating a set of words bit by bit

A set of words can only be asked, for a prefix that has been chosen, which bits come next in its
words. `Walk` is a walk through such a set that goes on after the word of the walk before it: it
follows that word up to the last place where the word took 0 and could have taken 1, takes 1 there,
and takes 0 wherever it can from then on. The walk ends at the next word in the order of the bits
(`Walk.next`), and remembers the last place where it took 0 and could have taken 1 itself
(`LastBranch`).
-/

namespace WixelSdk.WordSearch

abbrev Word := ℕ → Bool

def Agree (k : ℕ) (v w : Word) : Prop := ∀ i < k, v i = w i

instance (k : ℕ) (v w : Word) : Decidable (Agree k v w) :=
  inferInstanceAs (Decidable (∀ i < k, v i = w i))

/-- At the first of the `n` bits in which they differ, `v` has 0 and `w` has 1. -/
def Precedes (n : ℕ) (v w : Word) : Prop := ∃ k < n, Agree k v w ∧ v k = false ∧ w k = true

section Order

variable {k n : ℕ} {u v w : Word}

theorem Agree.refl : Agree k v v := fun _ _ => rfl

theorem Agree.symm (h : Agree k v w) : Agree k w v := fun i hi => (h i hi).symm

theorem Agree.trans (h : Agree k u v) (h' : Agree k v w) : Agree k u w :=
  fun i hi => (h i hi).trans (h' i hi)

theorem Agree.mono {j : ℕ} (h : Agree k v w) (hj : j ≤ k) : Agree j v w :=
  fun i hi => h i (hi.trans_le hj)

theorem agree_succ : Agree (k + 1) v w ↔ Agree k v w ∧ v k = w k := by
  constructor
  · intro h
    exact ⟨h.mono k.le_succ, h k k.lt_succ_self⟩
  · rintro ⟨h, hk⟩ i hi
    rcases Nat.lt_succ_iff_lt_or_eq.mp hi with hlt | rfl
    · exact h i hlt
    · exact hk

@[simp] theorem agree_update_left {b : Bool} : Agree k (Function.update v k b) w ↔ Agree k v w := by
  constructor <;> intro h i hi
  · simpa [hi.ne] using h i hi
  · simpa [hi.ne] using h i hi

theorem Precedes.irrefl : ¬ Precedes n v v := by
  rintro ⟨k, _, _, hfalse, htrue⟩
  rw [hfalse] at htrue
  cases htrue

theorem Precedes.trans (h : Precedes n u v) (h' : Precedes n v w) : Precedes n u w := by
  obtain ⟨j, hj, hagree, huj, hvj⟩ := h
  obtain ⟨k, hk, hagree', hvk, hwk⟩ := h'
  rcases lt_trichotomy j k with hlt | rfl | hlt
  · exact ⟨j, hj, hagree.trans (hagree'.mono hlt.le), huj, (hagree' j hlt).symm.trans hvj⟩
  · rw [hvj] at hvk
    cases hvk
  · exact ⟨k, hk, (hagree.mono hlt.le).trans hagree', (hagree k hlt).trans hvk, hwk⟩

theorem Precedes.asymm (h : Precedes n v w) : ¬ Precedes n w v :=
  fun h' => Precedes.irrefl (h.trans h')

theorem agree_or_precedes (n : ℕ) (v w : Word) :
    Agree n v w ∨ Precedes n v w ∨ Precedes n w v := by
  induction n with
  | zero => exact .inl fun i hi => absurd hi i.not_lt_zero
  | succ n ih =>
      rcases ih with hagree | ⟨k, hk, h⟩ | ⟨k, hk, h⟩
      · rcases hv : v n with _ | _ <;> rcases hw : w n with _ | _
        · exact .inl (agree_succ.mpr ⟨hagree, hv.trans hw.symm⟩)
        · exact .inr (.inl ⟨n, n.lt_succ_self, hagree, hv, hw⟩)
        · exact .inr (.inr ⟨n, n.lt_succ_self, hagree.symm, hw, hv⟩)
        · exact .inl (agree_succ.mpr ⟨hagree, hv.trans hw.symm⟩)
      · exact .inr (.inl ⟨k, hk.trans n.lt_succ_self, h⟩)
      · exact .inr (.inr ⟨k, hk.trans n.lt_succ_self, h⟩)

end Order

/-! ### Branches -/

/-- With the prefix of length `k` of `q`, the words of `S` that go on with the bit `b`. -/
def Continues (S : Set Word) (q : Word) (k : ℕ) (b : Bool) : Prop :=
  ∃ w ∈ S, Agree k q w ∧ w k = b

/-- At `k` the word `q` took 0, and could have taken 1. -/
def Branch (S : Set Word) (q : Word) (k : ℕ) : Prop := q k = false ∧ Continues S q k true

/-- `z` is the number of the last place, below `k`, where `q` has a branch: places are numbered
from 1, and 0 stands for none. -/
structure LastBranch (S : Set Word) (q : Word) (k z : ℕ) : Prop where
  none_after : ∀ j < k, z ≤ j → ¬ Branch S q j
  branch : ∀ j, z = j + 1 → j < k ∧ Branch S q j

section Branches

variable {S : Set Word} {q q' : Word} {k n z : ℕ} {b : Bool}

theorem Continues.congr (h : Agree k q q') (hc : Continues S q k b) : Continues S q' k b := by
  obtain ⟨w, hw, hagree, hb⟩ := hc
  exact ⟨w, hw, h.symm.trans hagree, hb⟩

theorem Branch.congr (h : Agree (k + 1) q q') (hb : Branch S q k) : Branch S q' k :=
  ⟨(h k k.lt_succ_self).symm.trans hb.1, hb.2.congr (h.mono k.le_succ)⟩

theorem LastBranch.zero : LastBranch S q 0 0 where
  none_after j hj := absurd hj j.not_lt_zero
  branch j hj := absurd hj.symm j.succ_ne_zero

theorem LastBranch.congr (h : LastBranch S q k z) (hq : Agree k q q') : LastBranch S q' k z where
  none_after j hj hz hb := h.none_after j hj hz (hb.congr (hq.mono hj).symm)
  branch j hj := ⟨(h.branch j hj).1, (h.branch j hj).2.congr (hq.mono (h.branch j hj).1)⟩

theorem LastBranch.succ_of_branch (hb : Branch S q k) :
    LastBranch S q (k + 1) (k + 1) where
  none_after _ hj hz := absurd hj (Nat.not_lt.mpr hz)
  branch j hj := by
    obtain rfl : k = j := Nat.succ.inj hj
    exact ⟨k.lt_succ_self, hb⟩

theorem LastBranch.succ_of_not (h : LastBranch S q k z) (hb : ¬ Branch S q k) :
    LastBranch S q (k + 1) z where
  none_after j hj hz := by
    rcases Nat.lt_succ_iff_lt_or_eq.mp hj with hlt | rfl
    · exact h.none_after j hlt hz
    · exact hb
  branch j hj := ⟨(h.branch j hj).1.trans k.lt_succ_self, (h.branch j hj).2⟩

/-- A word of `S` that `q` precedes leaves it at a branch. -/
theorem branch_of_precedes {w : Word} (hw : w ∈ S) (h : Precedes n q w) :
    ∃ k < n, Branch S q k ∧ Agree k q w ∧ w k = true := by
  obtain ⟨k, hk, hagree, hq, hwk⟩ := h
  exact ⟨k, hk, ⟨hq, w, hw, hagree, hwk⟩, hagree, hwk⟩

theorem LastBranch.last (h : LastBranch S q n 0) {w : Word} (hw : w ∈ S) : ¬ Precedes n q w := by
  intro hlt
  obtain ⟨k, hk, hb, _⟩ := branch_of_precedes hw hlt
  exact h.none_after k hk k.zero_le hb

theorem LastBranch.exists_precedes (h : LastBranch S q n z) (hz : z ≠ 0) :
    ∃ w ∈ S, Precedes n q w := by
  obtain ⟨j, rfl⟩ := Nat.exists_eq_succ_of_ne_zero hz
  obtain ⟨hj, hq, w, hw, hagree, hone⟩ := h.branch j rfl
  exact ⟨w, hw, j, hj, hagree, hq, hone⟩

end Branches

/-! ### The walk -/

/-- The bit that is taken at `k`, where `d` is the last branch of the word `p` before: `zero` and
`one` say which bits are there to take. -/
def direction (d k : ℕ) (p : Word) (zero one : Bool) : Bool :=
  if zero && one then if k + 1 < d then p k else k + 1 == d else one

/-- The first `k` bits of `q` have been chosen, after the word `p`, whose last branch is `d`. -/
structure Walk (S : Set Word) (p : Word) (d k : ℕ) (q : Word) (z : ℕ) : Prop where
  reached : ∃ w ∈ S, Agree k q w
  lastBranch : LastBranch S q k z
  follows : ∀ j, d = j + 1 → Agree (min k j) q p
  turns : ∀ j, d = j + 1 → j < k → q j = true
  lowest : ∀ j < k, d ≤ j → q j = true → ¬ Continues S q j false

section Walk

variable {S : Set Word} {p q : Word} {d k n z : ℕ} {zero one : Bool}

theorem Walk.start {w : Word} (hw : w ∈ S) : Walk S p d 0 q 0 where
  reached := ⟨w, hw, fun i hi => absurd hi i.not_lt_zero⟩
  lastBranch := .zero
  follows j _ i hi := absurd hi (by omega)
  turns j _ hj := absurd hj j.not_lt_zero
  lowest j hj := absurd hj j.not_lt_zero

theorem Walk.congr {q' : Word} (h : Walk S p d k q z) (hq : Agree k q q') : Walk S p d k q' z where
  reached := by
    obtain ⟨w, hw, hagree⟩ := h.reached
    exact ⟨w, hw, hq.symm.trans hagree⟩
  lastBranch := h.lastBranch.congr hq
  follows j hj := ((hq.mono (Nat.min_le_left k j)).symm).trans (h.follows j hj)
  turns j hj hk := (hq j hk).symm.trans (h.turns j hj hk)
  lowest j hj hd hone hc := h.lowest j hj hd ((hq j hj).trans hone) (hc.congr (hq.mono hj.le).symm)

/-- What the bits of the words in `S` say about the direction. -/
theorem direction_cases (hz : zero = true ↔ Continues S q k false)
    (ho : one = true ↔ Continues S q k true) (hreached : ∃ w ∈ S, Agree k q w) :
    Continues S q k (direction d k p zero one) := by
  obtain ⟨w, hw, hagree⟩ := hreached
  have hcontinues : Continues S q k (w k) := ⟨w, hw, hagree, rfl⟩
  cases hwk : w k <;> rw [hwk] at hcontinues
  · have hzero : zero = true := hz.mpr hcontinues
    cases hone : one with
    | false => simpa [direction, hzero] using hcontinues
    | true =>
        cases hdir : direction d k p zero true with
        | false => exact hcontinues
        | true => exact ho.mp hone
  · have hone : one = true := ho.mpr hcontinues
    cases hzero : zero with
    | false => simpa [direction, hone] using hcontinues
    | true =>
        cases hdir : direction d k p true one with
        | false => exact hz.mp hzero
        | true => exact hcontinues

def Previous (S : Set Word) (n : ℕ) (p : Word) (d : ℕ) : Prop :=
  d ≠ 0 → (∃ w ∈ S, Agree n p w) ∧ LastBranch S p n d

/-- The walk follows the word before it as far as its last branch. -/
theorem direction_follows (hprev : Previous S n p d) (hz : zero = true ↔ Continues S q k false)
    (ho : one = true ↔ Continues S q k true) {j : ℕ} (hd : d = j + 1) (hk : k < j)
    (hfollows : Agree k q p) : direction d k p zero one = p k := by
  obtain ⟨⟨w, hw, hagree⟩, hlast⟩ := hprev (hd ▸ j.succ_ne_zero)
  have hkn : k < n := hk.trans (hlast.branch j hd).1
  have hp : Continues S q k (p k) :=
    ⟨w, hw, hfollows.trans (hagree.mono hkn.le), (hagree k hkn).symm⟩
  cases hpk : p k <;> rw [hpk] at hp
  · have hzero : zero = true := hz.mpr hp
    cases hone : one with
    | false => simp [direction, hzero]
    | true => simp [direction, hzero, hpk, show k + 1 < d by omega]
  · have hone : one = true := ho.mpr hp
    cases hzero : zero with
    | false => simp [direction, hone]
    | true => simp [direction, hone, hpk, show k + 1 < d by omega]

/-- At the last branch of the word before, the walk takes 1. -/
theorem direction_turns (hprev : Previous S n p d) (ho : one = true ↔ Continues S q k true)
    (hd : d = k + 1) (hfollows : Agree k q p) : direction d k p zero one = true := by
  obtain ⟨_, hlast⟩ := hprev (hd ▸ k.succ_ne_zero)
  have hone : one = true := ho.mpr ((hlast.branch k hd).2.2.congr hfollows.symm)
  cases zero <;> simp [direction, hone, hd]

/-- One step of the walk. -/
theorem Walk.step (h : Walk S p d k q z) (hprev : Previous S n p d)
    (hz : zero = true ↔ Continues S q k false) (ho : one = true ↔ Continues S q k true) :
    let b := direction d k p zero one
    Walk S p d (k + 1) (Function.update q k b) (if zero && one && !b then k + 1 else z) := by
  intro b
  have hsame : Agree k q (Function.update q k b) := (agree_update_left.mpr .refl).symm
  have hnew : Function.update q k b k = b := Function.update_self k b q
  have hcontinues : Continues S q k b := direction_cases hz ho h.reached
  have hw := h.congr hsame
  refine ⟨?_, ?_, ?_, ?_, ?_⟩
  · obtain ⟨w, hw, hagree, hb⟩ := hcontinues
    exact ⟨w, hw, agree_succ.mpr ⟨hsame.symm.trans hagree, hnew.trans hb.symm⟩⟩
  · split_ifs with hif
    · simp only [Bool.and_eq_true, Bool.not_eq_true'] at hif
      exact .succ_of_branch ⟨hnew.trans hif.2, (ho.mp hif.1.2).congr hsame⟩
    · apply hw.lastBranch.succ_of_not
      rintro ⟨hzero, hone⟩
      have hb : b = false := hnew.symm.trans hzero
      have hc1 : one = true := ho.mpr (hone.congr hsame.symm)
      have hc0 : zero = true := hz.mpr (hb ▸ hcontinues)
      simp [hb, hc1, hc0] at hif
  · intro j hd
    rcases Nat.lt_or_ge k j with hlt | hge
    · have hfollows : Agree k q p := by simpa [hlt.le] using h.follows j hd
      rw [Nat.min_eq_left hlt, agree_succ, hnew]
      exact ⟨hsame.symm.trans hfollows, direction_follows hprev hz ho hd hlt hfollows⟩
    · have hmin : min (k + 1) j = min k j := by omega
      rw [hmin]
      exact hw.follows j hd
  · intro j hd hj
    rcases Nat.lt_succ_iff_lt_or_eq.mp hj with hlt | rfl
    · exact hw.turns j hd hlt
    · rw [hnew]
      exact direction_turns hprev ho hd (by simpa using h.follows j hd)
  · intro j hj hdj hone hc
    rcases Nat.lt_succ_iff_lt_or_eq.mp hj with hlt | rfl
    · exact hw.lowest j hlt hdj hone hc
    · have hb : b = true := hnew.symm.trans hone
      have hc0 : zero = true := hz.mpr (hc.congr hsame.symm)
      have hc1 : one = true := ho.mpr (hb ▸ hcontinues)
      have hlt : ¬ j + 1 < d := by omega
      have hne : j + 1 ≠ d := by omega
      simp [b, direction, hc0, hc1, hlt, hne] at hb

theorem Walk.first (h : Walk S p 0 n q z) {w : Word} (hw : w ∈ S) : ¬ Precedes n w q := by
  rintro ⟨k, hk, hagree, hwk, hqk⟩
  exact h.lowest k hk k.zero_le hqk ⟨w, hw, hagree.symm, hwk⟩

/-- The walk ends after the word before it, and no word of `S` is between the two. -/
theorem Walk.next (h : Walk S p d n q z) (hd : d ≠ 0) (hprev : Previous S n p d) :
    Precedes n p q ∧ ∀ w ∈ S, Precedes n p w → ¬ Precedes n w q := by
  obtain ⟨j, rfl⟩ := Nat.exists_eq_succ_of_ne_zero hd
  obtain ⟨_, hlast⟩ := hprev hd
  obtain ⟨hj, hpj, _⟩ := hlast.branch j rfl
  have hfollows : Agree j q p := by simpa [hj.le] using h.follows j rfl
  have hturns : q j = true := h.turns j rfl hj
  refine ⟨⟨j, hj, hfollows.symm, hpj, hturns⟩, ?_⟩
  intro w hw hpw hwq
  obtain ⟨i, hi, hbranch, hagree, hwi⟩ := branch_of_precedes hw hpw
  obtain ⟨k, hk, hagree', hwk, hqk⟩ := hwq
  -- `w` leaves `p` at `i`, which is a branch of `p`, and so not after `j`
  have hij : i ≤ j := by
    by_contra! hlt
    exact hlast.none_after i hi hlt hbranch
  rcases hij.lt_or_eq with hlt | rfl
  · -- at `i` the walk still follows `p`, and `w` is already above it
    have hqi : q i = false := (hfollows i hlt).trans hbranch.1
    rcases lt_trichotomy k i with hki | rfl | hki
    · have hpk : p k = true := (hfollows k (hki.trans hlt)).symm.trans hqk
      rw [hagree k hki, hwk] at hpk
      cases hpk
    · rw [hqi] at hqk
      cases hqk
    · rw [hagree' i hki, hqi] at hwi
      cases hwi
  · rcases lt_trichotomy k i with hki | rfl | hki
    · have hpk : p k = true := (hfollows k hki).symm.trans hqk
      rw [hagree k hki, hwk] at hpk
      cases hpk
    · rw [hwi] at hwk
      cases hwk
    · exact h.lowest k hk hki hqk ⟨w, hw, hagree'.symm, hwk⟩

end Walk

/-! ### Listing all words -/

section Listing

variable {W : Type*}

/-- `ls` are the members of `ws` in the order of their words, each of them once. -/
structure Listing (f : W → Word) (n : ℕ) (ws ls : List W) : Prop where
  sorted : ls.Pairwise fun v w => Precedes n (f v) (f w)
  mem : ∀ w, w ∈ ls ↔ w ∈ ws

variable {f : W → Word} {n : ℕ} {ws ls : List W}

theorem exists_listing (hf : ∀ v w, Agree n (f v) (f w) → v = w) (ws : List W) :
    ∃ ls, Listing f n ws ls := by
  classical
  induction ws with
  | nil => exact ⟨[], .nil, fun _ => Iff.rfl⟩
  | cons w ws ih =>
      obtain ⟨ls, hls⟩ := ih
      refine ⟨ls.filter (fun v => Precedes n (f v) (f w)) ++
        w :: ls.filter (fun v => Precedes n (f w) (f v)), ?_, ?_⟩
      · rw [List.pairwise_append, List.pairwise_cons]
        refine ⟨hls.sorted.filter _, ⟨?_, hls.sorted.filter _⟩, ?_⟩
        · intro v hv
          exact of_decide_eq_true (List.mem_filter.mp hv).2
        · intro u hu v hv
          have huw : Precedes n (f u) (f w) := of_decide_eq_true (List.mem_filter.mp hu).2
          rcases List.mem_cons.mp hv with rfl | hv
          · exact huw
          · exact huw.trans (of_decide_eq_true (List.mem_filter.mp hv).2)
      · intro v
        rcases agree_or_precedes n (f v) (f w) with h | h | h
        · obtain rfl := hf v w h
          simp
        · simp [hls.mem, h, h.asymm, or_comm]
        · simp [hls.mem, h, h.asymm]

def wordsOf (f : W → Word) (ws : List W) : Set Word := {v | ∃ w ∈ ws, f w = v}

/-- The search has come to the member `v`, the one with the index `i`. -/
structure Located (f : W → Word) (n : ℕ) (ws ls : List W) (i : ℕ) (v : W) (z : ℕ) : Prop where
  index : ls[i]? = some v
  lastBranch : LastBranch (wordsOf f ws) (f v) n z

theorem Listing.getElem (h : Listing f n ws ls) {i j : ℕ} {v w : W} (hv : ls[i]? = some v)
    (hw : ls[j]? = some w) (hij : i < j) : Precedes n (f v) (f w) := by
  obtain ⟨hi, rfl⟩ := List.getElem?_eq_some_iff.mp hv
  obtain ⟨hj, rfl⟩ := List.getElem?_eq_some_iff.mp hw
  exact List.pairwise_iff_getElem.mp h.sorted i j hi hj hij

theorem Listing.index_lt (h : Listing f n ws ls) {i j : ℕ} {v w : W} (hv : ls[i]? = some v)
    (hw : ls[j]? = some w) (hvw : Precedes n (f v) (f w)) : i < j := by
  by_contra! hle
  rcases hle.lt_or_eq with hlt | rfl
  · exact hvw.asymm (h.getElem hw hv hlt)
  · rw [hv, Option.some.injEq] at hw
    exact Precedes.irrefl (hw ▸ hvw)

theorem Listing.exists_index (h : Listing f n ws ls) {w : Word} (hw : w ∈ wordsOf f ws) :
    ∃ (i : ℕ) (v : W), ls[i]? = some v ∧ f v = w := by
  obtain ⟨v, hv, rfl⟩ := hw
  obtain ⟨i, hi⟩ := List.mem_iff_getElem?.mp ((h.mem v).mpr hv)
  exact ⟨i, v, hi, rfl⟩

theorem Listing.mem_wordsOf (h : Listing f n ws ls) {i : ℕ} {v : W} (hv : ls[i]? = some v) :
    f v ∈ wordsOf f ws :=
  ⟨v, (h.mem v).mp (List.mem_iff_getElem?.mpr ⟨i, hv⟩), rfl⟩

/-- There is no branch left exactly at the last member. -/
theorem Located.zero_iff (h : Listing f n ws ls) {i z : ℕ} {v : W} (hv : Located f n ws ls i v z) :
    z = 0 ↔ i + 1 = ls.length := by
  obtain ⟨hi, _⟩ := List.getElem?_eq_some_iff.mp hv.index
  constructor
  · rintro rfl
    by_contra hne
    have hlt : i + 1 < ls.length := Nat.lt_of_le_of_ne hi hne
    have hnext : ls[i + 1]? = some ls[i + 1] := List.getElem?_eq_getElem hlt
    exact hv.lastBranch.last (h.mem_wordsOf hnext) (h.getElem hv.index hnext i.lt_succ_self)
  · intro hlast
    by_contra hz
    obtain ⟨w, hw, hlt⟩ := hv.lastBranch.exists_precedes hz
    obtain ⟨j, u, hu, rfl⟩ := h.exists_index hw
    obtain ⟨hj, _⟩ := List.getElem?_eq_some_iff.mp hu
    have hij := h.index_lt hv.index hu hlt
    omega

variable {p : Word} {v : W} {z : ℕ}

theorem Listing.first (hf : ∀ v w, Agree n (f v) (f w) → v = w) (h : Listing f n ws ls)
    (hw : Walk (wordsOf f ws) p 0 n (f v) z) : Located f n ws ls 0 v z := by
  obtain ⟨w, hmem, hagree⟩ := hw.reached
  obtain ⟨i, u, hu, rfl⟩ := h.exists_index hmem
  obtain rfl := hf v u hagree
  refine ⟨?_, hw.lastBranch⟩
  cases i with
  | zero => exact hu
  | succ i =>
      obtain ⟨hi, _⟩ := List.getElem?_eq_some_iff.mp hu
      have hpos : 0 < ls.length := Nat.zero_lt_of_lt hi
      have hzero : ls[0]? = some ls[0] := List.getElem?_eq_getElem hpos
      exact absurd (h.getElem hzero hu i.succ_pos) (hw.first (h.mem_wordsOf hzero))

theorem Listing.next (hf : ∀ v w, Agree n (f v) (f w) → v = w) (h : Listing f n ws ls) {i d : ℕ}
    {u : W} (hu : Located f n ws ls i u d) (hd : d ≠ 0)
    (hw : Walk (wordsOf f ws) (f u) d n (f v) z) : Located f n ws ls (i + 1) v z := by
  obtain ⟨w, hmem, hagree⟩ := hw.reached
  obtain ⟨j, v', hv, rfl⟩ := h.exists_index hmem
  obtain rfl := hf v v' hagree
  have hprev : Previous (wordsOf f ws) n (f u) d :=
    fun _ => ⟨⟨f u, h.mem_wordsOf hu.index, .refl⟩, hu.lastBranch⟩
  obtain ⟨hlt, hbetween⟩ := hw.next hd hprev
  have hij := h.index_lt hu.index hv hlt
  refine ⟨?_, hw.lastBranch⟩
  rcases (Nat.succ_le_of_lt hij).eq_or_lt with rfl | hskip
  · exact hv
  · obtain ⟨hj, _⟩ := List.getElem?_eq_some_iff.mp hv
    have hlt : i + 1 < ls.length := Nat.lt_trans hskip hj
    have hnext : ls[i + 1]? = some ls[i + 1] := List.getElem?_eq_getElem hlt
    exact absurd (h.getElem hnext hv hskip)
      (hbetween _ (h.mem_wordsOf hnext) (h.getElem hu.index hnext i.lt_succ_self))

end Listing

end WixelSdk.WordSearch
