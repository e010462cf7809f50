/-
  VmkDrivers.Lib.BitField

  Fields of a register.

  A field is the bits of a mask.  `setField m x r` writes `x` into the field `m`
  and leaves the other bits; a read of a field inside it gives what was written
  (`field_setField_inside`), a read of one beside it what was there before
  (`field_setField_beside`).
-/

import Mathlib

namespace VmkDrivers.Lib

variable {w : Nat}

/-- The bits of `r` in the mask `m`. -/
def field (m r : BitVec w) : BitVec w := r &&& m

/-- `r` with the bits of `x` in the mask `m`. -/
def setField (m x r : BitVec w) : BitVec w := r &&& ~~~m ||| x

variable {m k x r : BitVec w}

theorem field_setField_inside (hk : field m k = k) : field k (setField m x r) = field k x := by
  have hnone : ~~~m &&& k = 0#w := by
    unfold field at hk
    rw [← hk, BitVec.and_comm k, ← BitVec.and_assoc, BitVec.and_comm (~~~m), BitVec.and_not_self]
    exact BitVec.zero_and
  unfold field setField
  rw [BitVec.and_or_distrib_right, BitVec.and_assoc, hnone, BitVec.and_zero, BitVec.zero_or]

theorem field_setField_beside (hk : field m k = 0#w) (hx : field m x = x) :
    field k (setField m x r) = field k r := by
  have hall : ~~~m &&& k = k := by
    unfold field at hk
    apply BitVec.eq_of_getElem_eq
    intro i hi
    have hbit := congrArg (·[i]) hk
    simp only [BitVec.getElem_and, BitVec.getElem_zero, Bool.and_eq_false_iff] at hbit
    rw [BitVec.getElem_and, BitVec.getElem_not]
    rcases hbit with hbit | hbit
    · rw [hbit, Bool.and_false]
    · rw [hbit, Bool.not_false, Bool.true_and]
  have hnone : x &&& k = 0#w := by
    unfold field at hk hx
    rw [← hx, BitVec.and_assoc, BitVec.and_comm m, hk, BitVec.and_zero]
  unfold field setField
  rw [BitVec.and_or_distrib_right, BitVec.and_assoc, hall, hnone, BitVec.or_zero]

end VmkDrivers.Lib
