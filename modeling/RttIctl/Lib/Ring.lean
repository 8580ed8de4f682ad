import Mathlib.Data.Nat.ModEq
import Mathlib.Logic.Function.Basic
import RttIctl.Lib.PagedMemory

/-!
Owns a ring of cells read from a start: what `count` cells hold in order, what one
more cell or a run of cells behind them adds, and what is left when the first are given
up.

It does not own the counters of a user, nor when a ring is full or empty.
-/

namespace RttIctl.Lib

universe u

variable {α : Type u}

/-- The cells from `start` on, round the ring. -/
def ringContents (pool : Nat → α) (size start : Nat) : Nat → List α
  | 0 => []
  | count + 1 => pool (start % size) :: ringContents pool size (start + 1) count

theorem length_ringContents (pool : Nat → α) (size start count : Nat) :
    (ringContents pool size start count).length = count := by
  induction count generalizing start with
  | zero => rfl
  | succ count inductionHypothesis =>
      rw [ringContents, List.length_cons, inductionHypothesis]

/-- The index behind `index`, as a compare and a restart at 0. -/
theorem next_index_eq {size index : Nat} (inside : index < size) :
    (if index + 1 ≥ size then 0 else index + 1) = (index + 1) % size := by
  split
  · next wraps =>
      have last : index + 1 = size := by omega
      rw [last, Nat.mod_self]
  · next small => exact (Nat.mod_eq_of_lt (by omega)).symm

theorem ringContents_mod (pool : Nat → α) (size start count : Nat) :
    ringContents pool size (start % size) count = ringContents pool size start count := by
  induction count generalizing start with
  | zero => rfl
  | succ count inductionHypothesis =>
      rw [ringContents, ringContents, Nat.mod_mod, ← inductionHypothesis (start % size + 1),
        Nat.mod_add_mod, inductionHypothesis]

theorem ringContents_succ (pool : Nat → α) (size start count : Nat) :
    ringContents pool size start (count + 1) =
      ringContents pool size start count ++ [pool ((start + count) % size)] := by
  induction count generalizing start with
  | zero => rfl
  | succ count inductionHypothesis =>
      have behind : start + 1 + count = start + (count + 1) := by omega
      rw [ringContents, inductionHypothesis, ringContents, List.cons_append, behind]

/-- A cell that is not among them may change. -/
theorem ringContents_update {pool : Nat → α} {size start count slot : Nat} (value : α)
    (outside : ∀ i < count, (start + i) % size ≠ slot) :
    ringContents (Function.update pool slot value) size start count =
      ringContents pool size start count := by
  induction count generalizing start with
  | zero => rfl
  | succ count inductionHypothesis =>
      have own : start % size ≠ slot := outside 0 (Nat.succ_pos count)
      have later : ∀ i < count, (start + 1 + i) % size ≠ slot := by
        intro i inside
        have apart := outside (i + 1) (by omega)
        rwa [show start + (i + 1) = start + 1 + i by omega] at apart
      rw [ringContents, ringContents, Function.update_of_ne own, inductionHypothesis later]

/-- While there is room, a value behind the others is added and touches none. -/
theorem ringContents_push (pool : Nat → α) {size count : Nat} (start : Nat) (value : α)
    (room : count < size) :
    ringContents (Function.update pool ((start + count) % size) value) size start (count + 1) =
      ringContents pool size start count ++ [value] := by
  rw [ringContents_succ, Function.update_self, ringContents_update]
  intro i inside same
  have cross : i % size = count % size := Nat.ModEq.add_left_cancel' start same
  rw [Nat.mod_eq_of_lt (by omega), Nat.mod_eq_of_lt room] at cross
  omega

/-- Giving up the first cell moves the start by one. -/
theorem ringContents_pop (pool : Nat → α) {size start count : Nat} (inside : start < size) :
    ringContents pool size start (count + 1) =
      pool start :: ringContents pool size ((start + 1) % size) count := by
  rw [ringContents, ringContents_mod, Nat.mod_eq_of_lt inside]

theorem mod_of_lt_two {size i : Nat} (small : i < size + size) :
    i % size = if i < size then i else i - size := by
  split
  · next inside => exact Nat.mod_eq_of_lt inside
  · next past =>
      rw [Nat.mod_eq_sub_mod (by omega)]
      exact Nat.mod_eq_of_lt (by omega)

theorem ringContents_add (pool : Nat → α) (size start first second : Nat) :
    ringContents pool size start (first + second) =
      ringContents pool size start first ++ ringContents pool size (start + first) second := by
  induction first generalizing start with
  | zero =>
      rw [Nat.zero_add, Nat.add_zero]
      rfl
  | succ first inductionHypothesis =>
      have next : start + 1 + first = start + (first + 1) := by omega
      rw [Nat.succ_add, ringContents, inductionHypothesis, ringContents, List.cons_append, next]

/-- Up to the end of the pool the ring is a window. -/
theorem ringContents_eq_window {pool : Nat → α} {size start count : Nat}
    (inside : start + count ≤ size) :
    ringContents pool size start count = PagedMemory.window pool start count := by
  induction count generalizing start with
  | zero => rfl
  | succ count inductionHypothesis =>
      have here : start % size = start := Nat.mod_eq_of_lt (by omega)
      rw [ringContents, PagedMemory.window, here, inductionHypothesis (by omega)]

/-- A run of values that ends with the pool at the latest is added behind the others. -/
theorem ringContents_store {pool : Nat → α} {size start count slot : Nat} {cells : List α}
    (behind : (start + count) % size = slot) (inside : slot + cells.length ≤ size)
    (room : count + cells.length ≤ size) :
    ringContents (PagedMemory.store pool slot cells) size start (count + cells.length) =
      ringContents pool size start count ++ cells := by
  induction cells generalizing pool count slot with
  | nil => rw [List.append_nil]; rfl
  | cons cell rest inductionHypothesis =>
      rw [List.length_cons] at inside room
      have pushed := ringContents_push pool start cell (show count < size by omega)
      rw [behind] at pushed
      have added : count + (rest.length + 1) = count + 1 + rest.length := by omega
      rw [PagedMemory.store, List.length_cons, added]
      cases rest with
      | nil => exact pushed
      | cons next later =>
          rw [List.length_cons] at inside room
          have moved : (start + (count + 1)) % size = slot + 1 := by
            rw [← Nat.add_assoc, Nat.add_mod, behind, Nat.mod_eq_of_lt (show 1 < size by omega)]
            exact Nat.mod_eq_of_lt (by omega)
          rw [inductionHypothesis moved (by rw [List.length_cons]; omega)
            (by rw [List.length_cons]; omega), pushed, List.append_assoc, List.singleton_append]

end RttIctl.Lib
