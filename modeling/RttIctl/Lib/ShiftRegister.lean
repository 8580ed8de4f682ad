import Mathlib.Logic.Basic

/-!
Owns linear feedback shift registers of any width: the feedback shift, its
linearity over exclusive or, data bits injected after the feedback, and the
law that exchanges injecting a word bit by bit for adding it to the register
before the shifts.

It does not own any polynomial, width or start value.
-/

namespace RttIctl.Lib.ShiftRegister

variable {width : Nat} (poly : BitVec width)

/-- Shift left by one; the bit shifted out feeds the polynomial back. -/
def shift (register : BitVec width) : BitVec width :=
  if register.msb then (register <<< 1) ^^^ poly else register <<< 1

/-- `count` feedback shifts. -/
def shifts : Nat → BitVec width → BitVec width
  | 0, register => register
  | count + 1, register => shifts count (shift poly register)

/-- A feedback shift followed by the injection of one data bit. -/
def feed (register : BitVec width) (bit : Bool) : BitVec width :=
  if bit then shift poly register ^^^ poly else shift poly register

/-! ### Linearity -/

private theorem xor_feedback_cancel (left right feedback : BitVec width) :
    (left ^^^ feedback) ^^^ (right ^^^ feedback) = left ^^^ right := by
  rw [BitVec.xor_comm right feedback, BitVec.xor_assoc, ← BitVec.xor_assoc feedback feedback,
    BitVec.xor_self, BitVec.zero_xor]

/-- The feedback shift is linear over exclusive or. -/
theorem shift_xor (left right : BitVec width) :
    shift poly (left ^^^ right) = shift poly left ^^^ shift poly right := by
  unfold shift
  rw [BitVec.msb_xor, BitVec.shiftLeft_xor_distrib]
  cases left.msb <;> cases right.msb
  · simp
  · simp [BitVec.xor_assoc]
  · simp only [Bool.true_xor, Bool.not_false, if_true, Bool.false_eq_true, if_false]
    ac_rfl
  · simp [xor_feedback_cancel]

/-- The feedback shift of a data word: its top bit feeds back, the rest moves
up. -/
theorem shift_eq_feed (word : BitVec width) (register : BitVec width) :
    shift poly register ^^^ shift poly word = feed poly register word.msb ^^^ (word <<< 1) := by
  have shifted : shift poly word = if word.msb then (word <<< 1) ^^^ poly else word <<< 1 := rfl
  rw [shifted]
  unfold feed
  cases word.msb
  · simp
  · simp only [if_true]
    ac_rfl

/-- Adding a word to the register before the shifts, one bit peeled off. -/
theorem shifts_succ_xor (count : Nat) (register word : BitVec width) :
    shifts poly (count + 1) (register ^^^ word) =
      shifts poly count (feed poly register word.msb ^^^ (word <<< 1)) := by
  rw [shifts, shift_xor, shift_eq_feed]

end RttIctl.Lib.ShiftRegister
