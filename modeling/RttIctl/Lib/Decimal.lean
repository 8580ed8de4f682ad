import Mathlib.Algebra.Group.Nat.Defs
import Mathlib.Logic.Basic

/-!
Owns decimal renderings cut to their first digits: what is left after `k` digits
is the rendering of the number those digits form, so two cut renderings agree
exactly when these numbers do.

It does not own any text around the digits.
-/

namespace RttIctl.Lib.Decimal

/-- The number formed by the first `k` decimal digits, or by all of them. -/
def leading (k n : Nat) : Nat :=
  if n < 10 ^ k then n else leading k (n / 10)
termination_by n
decreasing_by
  have positive : 0 < 10 ^ k := Nat.pow_pos (by decide)
  omega

theorem leading_of_lt {k n : Nat} (short : n < 10 ^ k) : leading k n = n := by
  rw [leading, if_pos short]

theorem leading_of_le {k n : Nat} (long : 10 ^ k ≤ n) : leading k n = leading k (n / 10) := by
  rw [leading, if_neg (Nat.not_lt.mpr long)]

theorem toDigits_injective {n m : Nat} (same : Nat.toDigits 10 n = Nat.toDigits 10 m) :
    n = m := by
  have value := congrArg (fun digits => Nat.ofDigitChars 10 digits 0) same
  rw [Nat.ofDigitChars_ten_toDigits, Nat.ofDigitChars_ten_toDigits] at value
  exact value

/-- Cutting a rendering to `k` digits leaves the rendering of the number they
form. -/
theorem take_toDigits {k : Nat} (some_kept : 0 < k) (n : Nat) :
    (Nat.toDigits 10 n).take k = Nat.toDigits 10 (leading k n) := by
  induction n using leading.induct k with
  | case1 n short =>
      rw [leading_of_lt short]
      exact List.take_of_length_le ((Nat.length_toDigits_le_iff (by decide) some_kept).mpr short)
  | case2 n long inductionHypothesis =>
      have least : 10 ^ k ≤ n := Nat.not_lt.mp long
      have ten : 10 ≤ n := by
        have one := Nat.pow_le_pow_right (show 0 < 10 by decide) (show 1 ≤ k from some_kept)
        omega
      have room : k ≤ (Nat.toDigits 10 (n / 10)).length := by
        by_cases single : k = 1
        · rw [single]
          exact Nat.length_toDigits_pos
        · have below : ¬ n / 10 < 10 ^ (k - 1) := by
            have power : 10 ^ k = 10 ^ (k - 1) * 10 := by
              rw [← Nat.pow_succ, show (k - 1).succ = k by omega]
            omega
          have many := mt (Nat.length_toDigits_le_iff (show 1 < 10 by decide)
            (show 0 < k - 1 by omega)).mp below
          omega
      rw [leading_of_le least, Nat.toDigits_of_base_le (by decide) ten,
        List.take_append_of_le_length room, inductionHypothesis]

/-- Two cut renderings agree exactly when their first digits form one number. -/
theorem take_toDigits_eq_iff {k : Nat} (some_kept : 0 < k) (n m : Nat) :
    (Nat.toDigits 10 n).take k = (Nat.toDigits 10 m).take k ↔ leading k n = leading k m := by
  rw [take_toDigits some_kept, take_toDigits some_kept]
  exact ⟨toDigits_injective, congrArg (Nat.toDigits 10)⟩

/-- A number of `k + 1` digits or more keeps that many. -/
theorem pow_le_leading {k n : Nat} (long : 10 ^ k ≤ n) : 10 ^ k ≤ leading (k + 1) n := by
  induction n using leading.induct (k + 1) with
  | case1 n short =>
      rw [leading_of_lt short]
      exact long
  | case2 n cut inductionHypothesis =>
      have least : 10 ^ k * 10 ≤ n := Nat.not_lt.mp cut
      rw [leading_of_le least]
      exact inductionHypothesis (by omega)

/-- A number of at most `k` digits shares its first `k + 1` with no other. -/
theorem eq_of_leading_eq {k n m : Nat} (short : n < 10 ^ k)
    (same : leading (k + 1) n = leading (k + 1) m) : n = m := by
  have wider : 10 ^ k ≤ 10 ^ (k + 1) := Nat.pow_le_pow_right (by decide) (Nat.le_succ k)
  rw [leading_of_lt (Nat.lt_of_lt_of_le short wider)] at same
  have shortToo : m < 10 ^ k := by
    apply Nat.lt_of_not_le
    intro long
    have kept := pow_le_leading long
    omega
  rw [same, leading_of_lt (Nat.lt_of_lt_of_le shortToo wider)]

end RttIctl.Lib.Decimal
