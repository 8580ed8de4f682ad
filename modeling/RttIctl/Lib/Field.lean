import RttIctl.Lib.LittleEndian
import RttIctl.Lib.PagedMemory

/-!
Owns records laid out in byte memory: fields at fixed offsets, read and written
in place as little-endian numbers. A write to one field changes no byte outside
it, so every field that does not meet it reads as before.

It does not own the layout of any particular record.
-/

namespace RttIctl.Lib

open PagedMemory LittleEndian

/-- A field of a record: where it starts in the record and how many bytes it
has. -/
structure Field where
  offset : Nat
  size : Nat
  deriving DecidableEq, Repr

namespace Field

/-- The number in the field of the record at `base`. -/
def get (field : Field) (memory : Nat → UInt8) (base : Nat) : Nat :=
  valueOf (window memory (base + field.offset) field.size)

/-- The memory with a number in the field of the record at `base`. -/
def set (field : Field) (memory : Nat → UInt8) (base value : Nat) : Nat → UInt8 :=
  store memory (base + field.offset) (bytesOf field.size value)

variable {field other : Field} {memory memory' : Nat → UInt8} {base base' value : Nat}

theorem get_set (memory : Nat → UInt8) (base : Nat) (fits : value < 256 ^ field.size) :
    field.get (field.set memory base value) base = value := by
  have stored := window_store memory (base + field.offset) (bytesOf field.size value)
  rw [length_bytesOf] at stored
  rw [get, set, stored, valueOf_bytesOf fits]

/-- A field reads the same when none of its bytes changed. -/
theorem get_congr (agree : ∀ address, base + field.offset ≤ address →
    address < base + field.offset + field.size → memory address = memory' address) :
    field.get memory base = field.get memory' base := by
  rw [get, get, window_congr agree]

theorem set_of_outside {address : Nat} (outside : address < base + field.offset ∨
    base + field.offset + field.size ≤ address) :
    field.set memory base value address = memory address := by
  apply store_of_outside
  rw [length_bytesOf]
  exact outside

/-- Fields that do not meet. -/
theorem get_set_of_disjoint (disjoint :
    base + field.offset + field.size ≤ base' + other.offset ∨
      base' + other.offset + other.size ≤ base + field.offset) :
    field.get (other.set memory base' value) base = field.get memory base := by
  apply get_congr
  intro address low high
  apply set_of_outside
  omega

end Field

end RttIctl.Lib
