import Mathlib.Algebra.Group.Nat.Defs
import Mathlib.Data.Nat.Notation

/-!
Owns 32-bit stamps of an unbounded clock: the low word of a time, the
difference of two stamps, and how a wrap shows in their order. Everything is
about two times less than one turn of the word apart.

It does not own any source of time.
-/

namespace RttIctl.Lib

/-- The low 32 bits of a time. -/
def stamp (time : Nat) : UInt32 := UInt32.ofNat time

@[simp] theorem toNat_stamp (time : Nat) : (stamp time).toNat = time % 2 ^ 32 :=
  UInt32.toNat_ofNat'

variable {earlier later : Nat}

/-- The wrapping difference of two stamps is the time between them. -/
theorem toNat_stamp_sub (ordered : earlier ≤ later) (close : later - earlier < 2 ^ 32) :
    (stamp later - stamp earlier).toNat = later - earlier := by
  rw [UInt32.toNat_sub, toNat_stamp, toNat_stamp]
  omega

/-- The later stamp is the smaller one exactly when the word wrapped in
between. -/
theorem stamp_lt_iff (ordered : earlier ≤ later) (close : later - earlier < 2 ^ 32) :
    stamp later < stamp earlier ↔ earlier / 2 ^ 32 < later / 2 ^ 32 := by
  rw [UInt32.lt_iff_toNat_lt, toNat_stamp, toNat_stamp]
  omega

/-- An accumulator that stands for the time since `base` and is advanced by the
difference of two stamps. -/
theorem toNat_add_stamp_sub {base : Nat} {total : UInt32}
    (accumulated : total.toNat = earlier - base)
    (since : base ≤ earlier) (ordered : earlier ≤ later) (close : later - base < 2 ^ 32) :
    (total + (stamp later - stamp earlier)).toNat = later - base := by
  rw [UInt32.toNat_add, toNat_stamp_sub ordered (by omega), accumulated]
  omega

end RttIctl.Lib
