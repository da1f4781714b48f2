import Mathlib.Logic.Basic

namespace Umtp.Lib

variable {w : Nat}

-- A word of flags is tested, raised and lowered through masks.
def hasFlag (flags mask : BitVec w) : Bool :=
  flags &&& mask != 0#w

def raise (flags mask : BitVec w) : BitVec w :=
  flags ||| mask

def lower (flags mask : BitVec w) : BitVec w :=
  flags &&& ~~~mask

theorem hasFlag_iff (flags mask : BitVec w) : hasFlag flags mask = true ↔ flags &&& mask ≠ 0#w := by
  simp [hasFlag]

theorem hasFlag_raise_self (flags mask : BitVec w) (hm : mask ≠ 0#w) :
    hasFlag (raise flags mask) mask = true := by
  have habsorb : (flags ||| mask) &&& mask = mask := by
    ext i hi
    simp only [BitVec.getElem_and, BitVec.getElem_or]
    cases flags[i] <;> cases mask[i] <;> rfl
  rw [hasFlag_iff, raise, habsorb]
  exact hm

-- Raising one flag leaves the flags outside its mask as they are.
theorem hasFlag_raise_of_disjoint (flags : BitVec w) {mask other : BitVec w}
    (hd : mask &&& other = 0#w) : hasFlag (raise flags mask) other = hasFlag flags other := by
  rw [hasFlag, hasFlag, raise, BitVec.and_or_distrib_right, hd, BitVec.or_zero]

end Umtp.Lib
