import Mathlib.Logic.Function.Iterate

/-!
Owns bounded probing: a cursor that moves on until it stands on a free value or
has had its number of tries. A search fails exactly when every value it can
visit is taken, and otherwise stops at the first free one.

It does not own any successor function or notion of what is taken.
-/

namespace RttIctl.Lib

universe u

variable {α : Type u} (next : α → α) (taken : α → Prop) [DecidablePred taken]

/-- Move the cursor at most `tries` times; the value found, and the cursor. -/
def probe : Nat → α → Option α × α
  | 0, cursor => (none, cursor)
  | tries + 1, cursor =>
      if taken (next cursor) then probe tries (next cursor)
      else (some (next cursor), next cursor)

variable {next taken}

/-- The search fails exactly when everything it visits is taken. -/
theorem probe_eq_none_iff {tries : Nat} {cursor : α} :
    (probe next taken tries cursor).1 = none ↔ ∀ k < tries, taken (next^[k + 1] cursor) := by
  induction tries generalizing cursor with
  | zero => simp [probe]
  | succ tries inductionHypothesis =>
      rw [probe]
      split
      · next isTaken =>
          rw [inductionHypothesis]
          constructor
          · intro later k bound
            cases k with
            | zero => exact isTaken
            | succ k => exact later k (Nat.lt_of_succ_lt_succ bound)
          · intro all k bound
            exact all (k + 1) (Nat.succ_lt_succ bound)
      · next free =>
          constructor
          · intro impossible
            exact absurd impossible (Option.some_ne_none _)
          · intro all
            exact absurd (all 0 (Nat.succ_pos tries)) free

/-- A value found is the first free one, and the cursor stands on it. -/
theorem probe_eq_some {tries : Nat} {cursor found : α}
    (search : (probe next taken tries cursor).1 = some found) :
    (probe next taken tries cursor).2 = found ∧ ¬ taken found ∧
      ∃ k < tries, next^[k + 1] cursor = found ∧ ∀ j < k, taken (next^[j + 1] cursor) := by
  induction tries generalizing cursor with
  | zero => exact absurd search.symm (Option.some_ne_none found)
  | succ tries inductionHypothesis =>
      rw [probe] at search ⊢
      split at search
      · next isTaken =>
          rw [if_pos isTaken]
          obtain ⟨stands, free, k, bound, reached, earlier⟩ := inductionHypothesis search
          refine ⟨stands, free, k + 1, Nat.succ_lt_succ bound, reached, fun j before => ?_⟩
          cases j with
          | zero => exact isTaken
          | succ j => exact earlier j (Nat.lt_of_succ_lt_succ before)
      · next free =>
          rw [if_neg free]
          have same : next cursor = found := Option.some.inj search
          rw [same] at free
          refine ⟨same, free, 0, Nat.succ_pos tries, same, fun j before => ?_⟩
          exact absurd before (Nat.not_lt_zero j)

/-- Whatever holds of every value the cursor can move to holds of the cursor
after the search. -/
theorem probe_cursor (Holds : α → Prop) (moved : ∀ cursor, Holds cursor → Holds (next cursor))
    {tries : Nat} {cursor : α} (start : Holds cursor) :
    Holds (probe next taken tries cursor).2 := by
  induction tries generalizing cursor with
  | zero => exact start
  | succ tries inductionHypothesis =>
      rw [probe]
      split
      · exact inductionHypothesis (moved cursor start)
      · exact moved cursor start

end RttIctl.Lib
