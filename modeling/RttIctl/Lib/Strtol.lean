import Mathlib.Algebra.Group.Nat.Defs
import Mathlib.Algebra.Group.Int.Defs
import Mathlib.Data.List.TakeWhile

/-!
Owns decimal numbers in strings: the strings that are a decimal number, and
`strtol` in base ten with a 32-bit `long`, which skips blanks, takes a sign and
the digits that follow, and clamps the result. On a decimal number that fits,
`strtol` is its value.

It does not own any other base, nor the position at which the conversion stops.
-/

namespace RttIctl.Lib.Strtol

/-- `isspace` in the C locale. -/
def isSpace (c : Char) : Bool := c = ' ' || ('\t' ≤ c && c ≤ '\r')

def digitsValue (digits : List Char) : Nat :=
  digits.foldl (fun total c => total * 10 + (c.toNat - '0'.toNat)) 0

/-- The value of a string of one digit or more, and of nothing else. -/
def decimal? (s : List Char) : Option Nat :=
  if s ≠ [] ∧ s.all Char.isDigit then some (digitsValue s) else none

/-- The magnitude and the sign, limited to a 32-bit `long`. -/
def clamp (negative : Bool) (magnitude : Nat) : Int :=
  if negative then max (-(magnitude : Int)) (-2 ^ 31) else min (magnitude : Int) (2 ^ 31 - 1)

def strtol (s : List Char) : Int :=
  match s.dropWhile isSpace with
  | '-' :: rest => clamp true (digitsValue (rest.takeWhile Char.isDigit))
  | '+' :: rest => clamp false (digitsValue (rest.takeWhile Char.isDigit))
  | rest => clamp false (digitsValue (rest.takeWhile Char.isDigit))

theorem isSpace_of_isDigit {c : Char} (digit : c.isDigit = true) : isSpace c = false := by
  simp only [Char.isDigit, Bool.and_eq_true, decide_eq_true_eq, UInt32.le_iff_toNat_le] at digit
  simp only [isSpace, Bool.or_eq_false_iff, decide_eq_false_iff_not, Bool.and_eq_false_iff]
  refine ⟨?_, .inr ?_⟩
  · rintro rfl
    exact absurd digit (by decide)
  · rw [Char.le_def, UInt32.le_iff_toNat_le]
    have bound : ('\r' : Char).val.toNat = 13 := rfl
    have least : ('0' : Char).val.toNat = 48 := rfl
    have low := digit.1
    omega

/-- On a decimal number there is nothing to skip, no sign and nothing after the
digits. -/
theorem strtol_of_decimal {s : List Char} {n : Nat} (isDecimal : decimal? s = some n)
    (fits : n < 2 ^ 31) : strtol s = n := by
  unfold decimal? at isDecimal
  split at isDecimal
  · next digits =>
      obtain ⟨nonempty, all⟩ := digits
      rw [Option.some.injEq] at isDecimal
      obtain ⟨first, rest, rfl⟩ := List.exists_cons_of_ne_nil nonempty
      have isDigit : first.isDigit = true := by
        rw [List.all_cons, Bool.and_eq_true] at all
        exact all.1
      have start : (first :: rest).dropWhile isSpace = first :: rest := by
        rw [List.dropWhile_cons_of_neg]
        rw [isSpace_of_isDigit isDigit]
        decide
      have whole : (first :: rest).takeWhile Char.isDigit = first :: rest :=
        List.takeWhile_eq_self_iff.mpr (List.all_eq_true.mp all)
      unfold strtol
      rw [start]
      split
      · next same =>
          cases same
          exact absurd isDigit (by decide)
      · next same =>
          cases same
          exact absurd isDigit (by decide)
      · rw [whole, isDecimal, clamp, if_neg (by decide)]
        omega
  · cases isDecimal

end RttIctl.Lib.Strtol
