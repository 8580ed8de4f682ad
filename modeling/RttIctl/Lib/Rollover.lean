import Mathlib.Algebra.BigOperators.Group.List.Basic
import Mathlib.Algebra.Group.Fin.Basic
import Mathlib.Algebra.Ring.Int.Defs
import Mathlib.Tactic.Ring

/-!
Owns counters that roll over: a position in `0..last` that single counts move
up or down, and the number of complete turns. The position and the turns
together are the net count; the turns are zero exactly while the net count is
a position.

It does not own any representation of the turns.
-/

namespace RttIctl.Lib

variable {last : Nat}

/-- The next position of a counter that counts down or up. -/
def nextPos (pos : Fin (last + 1)) (down : Bool) : Fin (last + 1) :=
  if down then pos - 1 else pos + 1

/-- Does the count run over an end of the range? -/
def rollsOver (pos : Fin (last + 1)) (down : Bool) : Bool :=
  if down then pos == 0 else pos == Fin.last last

/-- The contribution of one count. -/
def countSign (down : Bool) : Int := if down then -1 else 1

structure Rollover (last : Nat) where
  pos : Fin (last + 1)
  turns : Int

namespace Rollover

def start : Rollover last := ⟨0, 0⟩

def count (c : Rollover last) (down : Bool) : Rollover last where
  pos := nextPos c.pos down
  turns := if rollsOver c.pos down then c.turns + countSign down else c.turns

def counts (c : Rollover last) (downs : List Bool) : Rollover last := downs.foldl count c

/-- The net count that a position and a number of turns stand for. -/
def value (c : Rollover last) : Int := c.pos.val + c.turns * (last + 1)

theorem nextPos_val (pos : Fin (last + 1)) (down : Bool) :
    ((nextPos pos down).val : Int) =
      pos.val + countSign down -
        (if rollsOver pos down then countSign down * (last + 1) else 0) := by
  cases down with
  | false =>
      by_cases atLast : pos = Fin.last last
      · simp [nextPos, rollsOver, countSign, atLast]
      · simp [nextPos, rollsOver, countSign, Fin.val_add_one, atLast]
  | true =>
      by_cases atZero : pos = 0
      · simp [nextPos, rollsOver, countSign, atZero]
      · have positive : 0 < pos.val := Nat.pos_of_ne_zero fun same => atZero (Fin.ext same)
        simp only [nextPos, rollsOver, countSign, Fin.coe_sub_one, atZero, if_true, if_false,
          beq_iff_eq]
        omega

theorem value_count (c : Rollover last) (down : Bool) :
    (c.count down).value = c.value + countSign down := by
  simp only [value, count, nextPos_val]
  split <;> ring

theorem value_counts (c : Rollover last) (downs : List Bool) :
    (c.counts downs).value = c.value + (downs.map countSign).sum := by
  induction downs generalizing c with
  | nil => simp [counts]
  | cons down rest inductionHypothesis =>
      have step := inductionHypothesis (c.count down)
      rw [value_count] at step
      simp only [counts, List.foldl_cons, List.map_cons, List.sum_cons] at step ⊢
      rw [step]
      ring

theorem turns_eq_zero_iff (c : Rollover last) :
    c.turns = 0 ↔ 0 ≤ c.value ∧ c.value ≤ last := by
  have low : (0 : Int) ≤ c.pos.val := Int.natCast_nonneg _
  have high : (c.pos.val : Int) ≤ last := by exact_mod_cast Nat.le_of_lt_succ c.pos.isLt
  constructor
  · intro none
    simp only [value, none, zero_mul, add_zero]
    exact ⟨low, high⟩
  · rintro ⟨nonneg, bounded⟩
    unfold value at nonneg bounded
    rcases Int.lt_trichotomy c.turns 0 with negative | zero | positive
    · have : c.turns * (last + 1) ≤ -1 * (last + 1) := by
        apply Int.mul_le_mul_of_nonneg_right <;> omega
      omega
    · exact zero
    · have : 1 * ((last : Int) + 1) ≤ c.turns * (last + 1) := by
        apply Int.mul_le_mul_of_nonneg_right <;> omega
      omega

end Rollover

end RttIctl.Lib
