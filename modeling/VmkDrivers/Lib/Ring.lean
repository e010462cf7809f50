/-
  VmkDrivers.Lib.Ring

  Finite rings: places with links between neighbours.

  A ring is a permutation of its places that goes once round all of them.
  It can be walked in two directions; `place d s k` is where `k` steps in
  direction `d` lead from `s`.  A link is named by its end against the clock,
  so the two directions cross the same link with the same name.
-/

import Mathlib

namespace VmkDrivers.Lib

inductive Dir where
  | cw
  | ccw
deriving DecidableEq, Repr

def Dir.other : Dir → Dir
  | .cw => .ccw
  | .ccw => .cw

@[simp] theorem Dir.other_other (d : Dir) : d.other.other = d := by cases d <;> rfl

@[simp] theorem Dir.other_ne (d : Dir) : d.other ≠ d := by cases d <;> decide

theorem Dir.eq_or_eq_other (d c : Dir) : c = d ∨ c = d.other := by
  cases d <;> cases c <;> simp [Dir.other]

def Dir.both (f : Dir → Nat) : Nat := f .cw + f .ccw

theorem Dir.both_eq (f : Dir → Nat) (d : Dir) : Dir.both f = f d + f d.other := by
  cases d with
  | cw => rfl
  | ccw => exact Nat.add_comm _ _

theorem Dir.both_update (f : Dir → Nat) (d : Dir) (k : Nat) :
    Dir.both (Function.update f d (f d + k)) = Dir.both f + k := by
  rw [Dir.both_eq _ d, Dir.both_eq f d, Function.update_self,
    Function.update_of_ne (Dir.other_ne d)]
  omega

structure Ring (V : Type*) [Fintype V] where
  next : Equiv.Perm V
  cycle : next.IsCycleOn (Finset.univ : Finset V)

namespace Ring

/-- The ring of `n + 2` places in their order. -/
def rotate (n : Nat) : Ring (Fin (n + 2)) where
  next := finRotate (n + 2)
  cycle := by
    have h := (isCycle_finRotate (n := n)).isCycleOn
    rwa [← Equiv.Perm.coe_support_eq_set_support, support_finRotate] at h

variable {V : Type*} [Fintype V] (R : Ring V) (d : Dir)

def step : Dir → Equiv.Perm V
  | .cw => R.next
  | .ccw => R.next⁻¹

/-- The link that a step from `x` crosses. -/
def link : Dir → V → V
  | .cw, x => x
  | .ccw, x => R.next.symm x

/-- `k` steps from `s`. -/
def place (d : Dir) (s : V) (k : Nat) : V := (R.step d ^ k) s

@[simp] theorem place_zero (s : V) : R.place d s 0 = s := rfl

theorem place_succ (s : V) (k : Nat) : R.place d s (k + 1) = R.step d (R.place d s k) := by
  unfold place
  rw [pow_succ', Equiv.Perm.mul_apply]

theorem cycle_step : (R.step d).IsCycleOn (Finset.univ : Finset V) := by
  cases d with
  | cw => exact R.cycle
  | ccw => exact R.cycle.inv

theorem place_place (s : V) (j k : Nat) : R.place d (R.place d s j) k = R.place d s (k + j) := by
  unfold place
  rw [pow_add, Equiv.Perm.mul_apply]

theorem place_eq_self_iff (s : V) (k : Nat) : R.place d s k = s ↔ Fintype.card V ∣ k :=
  (R.cycle_step d).pow_apply_eq (Finset.mem_univ s)

theorem place_card (s : V) : R.place d s (Fintype.card V) = s :=
  (R.place_eq_self_iff d s _).mpr dvd_rfl

theorem place_inj (s : V) {j k : Nat} (hj : j < Fintype.card V) (hk : k < Fintype.card V)
    (h : R.place d s j = R.place d s k) : j = k := by
  have hmod := ((R.cycle_step d).pow_apply_eq_pow_apply (Finset.mem_univ s)).mp h
  exact Nat.ModEq.eq_of_lt_of_lt hmod hj hk

theorem exists_place (s t : V) : ∃ k < Fintype.card V, R.place d s k = t :=
  (R.cycle_step d).exists_pow_eq (Finset.mem_univ s) (Finset.mem_univ t)

theorem step_other_step (x : V) : R.step d.other (R.step d x) = x := by
  cases d with
  | cw => exact R.next.symm_apply_apply x
  | ccw => exact R.next.apply_symm_apply x

theorem place_other_place (s : V) (k : Nat) : R.place d.other (R.place d s k) k = s := by
  induction k with
  | zero => rfl
  | succ k ih =>
    rw [← R.place_place d.other _ 1 k, place_succ, place_zero, place_succ, step_other_step]
    exact ih

theorem place_other (s : V) {k : Nat} (hk : k ≤ Fintype.card V) :
    R.place d.other s k = R.place d s (Fintype.card V - k) := by
  have hround : R.place d (R.place d s (Fintype.card V - k)) k = s := by
    rw [place_place, Nat.add_sub_cancel' hk, place_card]
  have hback := R.place_other_place d (R.place d s (Fintype.card V - k)) k
  rwa [hround] at hback

theorem place_step (x : V) (k : Nat) : R.place d (R.step d x) k = R.place d x (k + 1) := by
  rw [← R.place_place d x 1 k, place_succ, place_zero]

/-! ## Distances -/

section Dist

variable [DecidableEq V] {d : Dir}

/-- The number of steps from `x` to `y` within a round. -/
def dist (d : Dir) (x y : V) : Nat :=
  Nat.find ((R.exists_place d x y).imp fun _ h => h.2)

theorem place_dist (d : Dir) (x y : V) : R.place d x (R.dist d x y) = y :=
  Nat.find_spec ((R.exists_place d x y).imp fun _ h => h.2)

theorem dist_lt (d : Dir) (x y : V) : R.dist d x y < Fintype.card V := by
  obtain ⟨k, hk, hplace⟩ := R.exists_place d x y
  exact (Nat.find_le hplace).trans_lt hk

theorem dist_eq {x y : V} {k : Nat} (hk : k < Fintype.card V) (h : R.place d x k = y) :
    R.dist d x y = k :=
  R.place_inj d x (R.dist_lt d x y) hk ((R.place_dist d x y).trans h.symm)

theorem dist_le {x y : V} {k : Nat} (h : R.place d x k = y) : R.dist d x y ≤ k :=
  Nat.find_min' _ h

theorem dist_step_le (d : Dir) (x y : V) : R.dist d x (R.step d y) ≤ R.dist d x y + 1 := by
  apply R.dist_le
  rw [place_succ, place_dist]

theorem dist_eq_zero {x y : V} : R.dist d x y = 0 ↔ x = y := by
  constructor
  · intro h
    have hplace := R.place_dist d x y
    rwa [h, place_zero] at hplace
  · rintro rfl
    exact R.dist_eq (Fintype.card_pos_iff.mpr ⟨x⟩) (R.place_zero d x)

theorem dist_step_other_lt (d : Dir) {x y : V} (h : x ≠ y) :
    R.dist d x (R.step d.other y) < R.dist d x y := by
  obtain ⟨k, hk⟩ := Nat.exists_eq_succ_of_ne_zero (mt R.dist_eq_zero.mp h)
  have hplace := R.place_dist d x y
  rw [hk, place_succ] at hplace
  rw [hk, Nat.lt_succ_iff]
  apply R.dist_le
  rw [← hplace, step_other_step]

theorem dist_step (d : Dir) {x y : V} (h : x ≠ y) : R.dist d (R.step d x) y + 1 = R.dist d x y := by
  obtain ⟨k, hk⟩ := Nat.exists_eq_succ_of_ne_zero (mt R.dist_eq_zero.mp h)
  have hlt := R.dist_lt d x y
  have hplace := R.place_dist d x y
  rw [hk] at hplace hlt ⊢
  rw [R.dist_eq (Nat.lt_of_succ_lt hlt) ((R.place_step d x k).trans hplace)]

theorem dist_other (d : Dir) {x y : V} (h : x ≠ y) :
    R.dist d.other x y + R.dist d x y = Fintype.card V := by
  have hpos : R.dist d x y ≠ 0 := mt R.dist_eq_zero.mp h
  have hlt := R.dist_lt d x y
  have hplace : R.place d.other x (Fintype.card V - R.dist d x y) = y := by
    rw [R.place_other d x (Nat.sub_le _ _), Nat.sub_sub_self hlt.le, place_dist]
  rw [R.dist_eq (by omega) hplace]
  omega

theorem dist_step_self (d : Dir) (x : V) : R.dist d (R.step d x) x + 1 = Fintype.card V := by
  have hpos : 0 < Fintype.card V := Fintype.card_pos_iff.mpr ⟨x⟩
  have hplace : R.place d (R.step d x) (Fintype.card V - 1) = x := by
    rw [place_step, Nat.sub_add_cancel hpos, place_card]
  rw [R.dist_eq (Nat.sub_lt hpos Nat.one_pos) hplace, Nat.sub_add_cancel hpos]

end Dist

/-! ## Links -/

variable (d : Dir)

theorem link_other_step (x : V) : R.link d.other (R.step d x) = R.link d x := by
  cases d with
  | cw => exact R.next.symm_apply_apply x
  | ccw => rfl

theorem link_injective : Function.Injective (R.link d) := by
  cases d with
  | cw => exact fun _ _ h => h
  | ccw => exact R.next.symm.injective

theorem exists_link (s e : V) : ∃ k < Fintype.card V, R.link d (R.place d s k) = e := by
  cases d with
  | cw => exact R.exists_place .cw s e
  | ccw =>
    obtain ⟨k, hk, hplace⟩ := R.exists_place .ccw s (R.next e)
    refine ⟨k, hk, ?_⟩
    rw [hplace]
    exact R.next.symm_apply_apply e

theorem link_place_other (s : V) {k : Nat} (hk : k < Fintype.card V) :
    R.link d.other (R.place d.other s k) = R.link d (R.place d s (Fintype.card V - 1 - k)) := by
  rw [R.place_other d s hk.le]
  have hsub : Fintype.card V - k = Fintype.card V - 1 - k + 1 := by omega
  rw [hsub, place_succ, link_other_step]

end Ring

end VmkDrivers.Lib
