import Mathlib.Logic.Basic

/-!
Owns pointers to heap arrays: null, live with its cells, or left behind after
the array was freed. Reads and writes are partial; outside a live array they
have no result.

It does not own any allocator policy or cell type.
-/

namespace RttIctl.Lib

universe u

/-- A pointer to an array of `α`. -/
inductive Block (α : Type u)
  | null
  | live (cells : List α)
  | freed
  deriving DecidableEq, Repr

namespace Block

variable {α : Type u}

/-- The cell at an index; no result outside a live array. -/
def get? : Block α → Nat → Option α
  | .live cells, index => cells[index]?
  | .null, _ => none
  | .freed, _ => none

/-- The array with one cell replaced; no result outside a live array. -/
def set? : Block α → Nat → α → Option (Block α)
  | .live cells, index, cell =>
      if index < cells.length then some (.live (cells.set index cell)) else none
  | .null, _, _ => none
  | .freed, _, _ => none

/-- Allocate `count` cells. The environment answers with a failure or with the
old content of the memory; a request for nothing gives a null pointer. -/
def malloc (answer : Option (Nat → α)) (count : Nat) : Block α :=
  if count = 0 then .null
  else
    match answer with
    | none => .null
    | some content => .live ((List.range count).map content)

theorem get?_live {cells : List α} {index : Nat} (inside : index < cells.length) :
    (live cells).get? index = some cells[index] :=
  List.getElem?_eq_getElem inside

theorem set?_live {cells : List α} {index : Nat} (inside : index < cells.length) (cell : α) :
    (live cells).set? index cell = some (.live (cells.set index cell)) :=
  if_pos inside

/-- A request for nothing, or one that fails, gives a null pointer. -/
theorem malloc_refused {answer : Option (Nat → α)} {count : Nat}
    (refused : count = 0 ∨ answer = none) : malloc answer count = .null := by
  unfold malloc
  split
  · rfl
  · next positive => rw [refused.resolve_left positive]

/-- The pointer has exactly `count` cells behind it; a null pointer has none. -/
def Holds : Block α → Nat → Prop
  | .null, count => count = 0
  | .live cells, count => cells.length = count
  | .freed, _ => False

/-- The pointer has at least `count` cells behind it; a null pointer has none. -/
def Covers : Block α → Nat → Prop
  | .null, count => count = 0
  | .live cells, count => count ≤ cells.length
  | .freed, _ => False

theorem Holds.get?_of_lt {block : Block α} {count index : Nat} (holds : block.Holds count)
    (inside : index < count) : ∃ cell, block.get? index = some cell := by
  cases block with
  | null => exact absurd (holds ▸ inside) (Nat.not_lt_zero index)
  | live cells => exact ⟨_, get?_live (Nat.lt_of_lt_of_eq inside holds.symm)⟩
  | freed => exact False.elim holds

theorem Holds.get?_of_le {block : Block α} {count index : Nat} (holds : block.Holds count)
    (outside : count ≤ index) : block.get? index = none := by
  cases block with
  | null => rfl
  | live cells => exact List.getElem?_eq_none (Nat.le_trans (Nat.le_of_eq holds) outside)
  | freed => exact False.elim holds

/-- A cell in range can be replaced, and the array keeps its size. -/
theorem Holds.set?_of_lt {block : Block α} {count index : Nat} (holds : block.Holds count)
    (inside : index < count) (cell : α) :
    ∃ written, block.set? index cell = some written ∧ written.Holds count := by
  cases block with
  | null => exact absurd (holds ▸ inside) (Nat.not_lt_zero index)
  | live cells =>
      refine ⟨_, set?_live (Nat.lt_of_lt_of_eq inside holds.symm) cell, ?_⟩
      rw [Holds, List.length_set]
      exact holds
  | freed => exact False.elim holds

end Block

end RttIctl.Lib
