import Mathlib.Algebra.Group.Nat.Defs

/-!
Owns little-endian byte images: numbers as bytes, and the fields of a record
read back from the image of the whole record.

It does not own the layout of any particular record.
-/

namespace RttIctl.Lib.LittleEndian

/-- The low `size` bytes of a number, the least significant first. -/
def bytesOf : Nat → Nat → List UInt8
  | 0, _ => []
  | size + 1, value => UInt8.ofNat value :: bytesOf size (value / 256)

def valueOf : List UInt8 → Nat
  | [] => 0
  | byte :: rest => byte.toNat + 256 * valueOf rest

/-- The field of `size` bytes at `offset`. -/
def field (image : List UInt8) (offset size : Nat) : Nat :=
  valueOf ((image.drop offset).take size)

@[simp]
theorem length_bytesOf (size value : Nat) : (bytesOf size value).length = size := by
  induction size generalizing value with
  | zero => rfl
  | succ size inductionHypothesis => rw [bytesOf, List.length_cons, inductionHypothesis]

theorem valueOf_bytesOf {size value : Nat} (fits : value < 256 ^ size) :
    valueOf (bytesOf size value) = value := by
  induction size generalizing value with
  | zero =>
      rw [Nat.pow_zero] at fits
      rw [bytesOf, valueOf]
      omega
  | succ size inductionHypothesis =>
      have rest : value / 256 < 256 ^ size := by
        rw [Nat.div_lt_iff_lt_mul (by decide), ← Nat.pow_succ]
        exact fits
      have low : (UInt8.ofNat value).toNat = value % 256 := UInt8.toNat_ofNat'
      rw [bytesOf, valueOf, inductionHypothesis rest, low, Nat.mod_add_div]

/-- A field that lies behind `front` is a field of what follows it. -/
theorem field_append_right {front back : List UInt8} {offset size : Nat}
    (behind : front.length ≤ offset) :
    field (front ++ back) offset size = field back (offset - front.length) size := by
  rw [field, field, List.drop_append, List.drop_of_length_le behind, List.nil_append]

theorem field_bytesOf_append {size value : Nat} (back : List UInt8) (fits : value < 256 ^ size) :
    field (bytesOf size value ++ back) 0 size = value := by
  rw [field, List.drop_zero, List.take_left' (length_bytesOf size value), valueOf_bytesOf fits]

theorem field_bytesOf {size value : Nat} (fits : value < 256 ^ size) :
    field (bytesOf size value) 0 size = value := by
  simpa using field_bytesOf_append [] fits

end RttIctl.Lib.LittleEndian
