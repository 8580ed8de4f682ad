import RttIctl.Lib.PagedMemory

/-!
Owns terminated strings in memory: the comparison of a string at an address
with a literal, cell by cell, and what it says about a buffer that was stored
and then terminated. Cells and terminator are arbitrary.

It does not own any buffer, literal or character set.
-/

namespace RttIctl.Lib.CString

open PagedMemory

variable {α : Type*} [DecidableEq α] (terminator : α)

/-- `strcmp` with a literal, equal or not: cells are compared until they differ
or the literal ends, where the terminator is expected. -/
def equals (memory : Nat → α) : Nat → List α → Bool
  | address, [] => memory address = terminator
  | address, char :: rest => memory address = char && equals memory (address + 1) rest

/-- A stored and terminated buffer equals a literal exactly when its cells before
the first terminator are the literal. -/
theorem equals_store_iff {text : List α} (clean : terminator ∉ text) (memory : Nat → α)
    (start : Nat) (cells : List α) :
    equals terminator (store memory start (cells ++ [terminator])) start text = true ↔
      cells.takeWhile (· ≠ terminator) = text := by
  induction cells generalizing memory start text with
  | nil =>
      have stored : store memory start [terminator] start = terminator := by
        rw [store, store, Function.update_self]
      rw [List.nil_append]
      cases text with
      | nil => simp [equals, stored]
      | cons char rest =>
          have differ : terminator ≠ char := fun same => clean (same ▸ List.mem_cons_self)
          simp [equals, stored, differ]
  | cons cell cells inductionHypothesis =>
      have stored : store memory start (cell :: cells ++ [terminator]) start = cell := by
        rw [List.cons_append, store, store_of_outside (Or.inl (Nat.lt_succ_self start)),
          Function.update_self]
      cases text with
      | nil =>
          rw [equals, stored, decide_eq_true_eq]
          by_cases ends : cell = terminator
          · simp [ends]
          · simp [ends]
      | cons char rest =>
          have cleanRest : terminator ∉ rest := fun member => clean (List.mem_cons_of_mem _ member)
          have tail := inductionHypothesis cleanRest (Function.update memory start cell) (start + 1)
          rw [equals, stored, Bool.and_eq_true, decide_eq_true_eq, List.cons_append, store, tail]
          by_cases ends : cell = terminator
          · have differ : terminator ≠ char := fun same => clean (same ▸ List.mem_cons_self)
            simp [ends, differ]
          · simp [ends]

/-- The cells before the first terminator are a given text exactly when the
buffer is the text, or the text and a terminator begin it. -/
theorem takeWhile_eq_iff {text : List α} (clean : terminator ∉ text) (cells : List α) :
    cells.takeWhile (· ≠ terminator) = text ↔ cells = text ∨ text ++ [terminator] <+: cells := by
  induction cells generalizing text with
  | nil => simp
  | cons cell cells inductionHypothesis =>
      cases text with
      | nil =>
          by_cases ends : cell = terminator
          · simp [ends]
          · simp [ends, Ne.symm ends]
      | cons char rest =>
          have cleanRest : terminator ∉ rest := fun member => clean (List.mem_cons_of_mem _ member)
          have differ : terminator ≠ char := fun same => clean (same ▸ List.mem_cons_self)
          by_cases ends : cell = terminator
          · simp [ends, differ, Ne.symm differ, List.cons_prefix_cons]
          · rw [List.takeWhile_cons_of_pos (by simpa using ends), List.cons.injEq,
              inductionHypothesis cleanRest, List.cons.injEq, List.cons_append,
              List.cons_prefix_cons, and_or_left, eq_comm (a := char)]

end RttIctl.Lib.CString
