import Mathlib.Logic.Function.Basic

/-!
Owns addressed memory whose cells are written a page at a time: plain writes
and windows, page writes whose address wraps inside the page, and the splitting
of a write at page boundaries. Cells and page size are arbitrary.

It does not own any particular device.
-/

namespace RttIctl.Lib.PagedMemory

variable {α : Type*}

/-- `cells` stored from `start` on. -/
def store (memory : Nat → α) (start : Nat) : List α → Nat → α
  | [] => memory
  | cell :: rest => store (Function.update memory start cell) (start + 1) rest

/-- The `count` cells from `start` on. -/
def window (memory : Nat → α) (start : Nat) : Nat → List α
  | 0 => []
  | count + 1 => memory start :: window memory (start + 1) count

/-- A page write: the address counter advances inside its page and rolls over
from the last cell to the first. -/
def pageStore (page : Nat) (memory : Nat → α) (start : Nat) : List α → Nat → α
  | [] => memory
  | cell :: rest =>
      pageStore page (Function.update memory start cell)
        (page * (start / page) + (start + 1) % page) rest

/-! ### Plain writes -/

theorem store_append (memory : Nat → α) (start : Nat) (first second : List α) :
    store memory start (first ++ second) =
      store (store memory start first) (start + first.length) second := by
  induction first generalizing memory start with
  | nil => simp [store]
  | cons cell rest inductionHypothesis =>
      simp only [List.cons_append, store, inductionHypothesis, List.length_cons]
      rw [Nat.add_assoc start 1, Nat.add_comm 1]

/-- A write changes only the cells it covers. -/
theorem store_of_outside {memory : Nat → α} {start address : Nat} {cells : List α}
    (outside : address < start ∨ start + cells.length ≤ address) :
    store memory start cells address = memory address := by
  induction cells generalizing memory start with
  | nil => rfl
  | cons cell rest inductionHypothesis =>
      rw [List.length_cons] at outside
      rw [store, inductionHypothesis (by omega), Function.update_of_ne (by omega)]

theorem window_congr {memory other : Nat → α} {start count : Nat}
    (agree : ∀ address, start ≤ address → address < start + count →
      memory address = other address) :
    window memory start count = window other start count := by
  induction count generalizing start with
  | zero => rfl
  | succ count inductionHypothesis =>
      have tail : window memory (start + 1) count = window other (start + 1) count :=
        inductionHypothesis fun address low high => agree address (by omega) (by omega)
      rw [window, window, tail, agree start (Nat.le_refl start) (by omega)]

/-- Reading back what was written. -/
theorem window_store (memory : Nat → α) (start : Nat) (cells : List α) :
    window (store memory start cells) start cells.length = cells := by
  induction cells generalizing memory start with
  | nil => rfl
  | cons cell rest inductionHypothesis =>
      rw [List.length_cons, window, store, inductionHypothesis,
        store_of_outside (Or.inl (Nat.lt_succ_self start)), Function.update_self]

/-- A write leaves every window it does not meet as it was. -/
theorem window_store_of_disjoint {memory : Nat → α} {start count other : Nat} {cells : List α}
    (disjoint : start + count ≤ other ∨ other + cells.length ≤ start) :
    window (store memory other cells) start count = window memory start count :=
  window_congr fun _ low high => store_of_outside (by omega)

@[simp]
theorem length_window (memory : Nat → α) (start count : Nat) :
    (window memory start count).length = count := by
  induction count generalizing start with
  | zero => rfl
  | succ count inductionHypothesis => rw [window, List.length_cons, inductionHypothesis]

/-- Two windows side by side. -/
theorem window_add (memory : Nat → α) (start first second : Nat) :
    window memory start (first + second) =
      window memory start first ++ window memory (start + first) second := by
  induction first generalizing start with
  | zero => simp [window]
  | succ first inductionHypothesis =>
      rw [Nat.succ_add, window, inductionHypothesis, window, List.cons_append, Nat.add_assoc,
        Nat.add_comm 1 first]

/-- A window cut at an address inside it. -/
theorem window_split (memory : Nat → α) {start middle stop : Nat} (low : start ≤ middle)
    (high : middle ≤ stop) :
    window memory start (stop - start) =
      window memory start (middle - start) ++ window memory middle (stop - middle) := by
  have total : stop - start = (middle - start) + (stop - middle) := by omega
  rw [total, window_add, Nat.add_sub_cancel' low]

/-- A window that ends with what was just written. -/
theorem window_store_append (memory : Nat → α) {base start : Nat} (low : base ≤ start)
    (cells : List α) :
    window (store memory start cells) base (start + cells.length - base) =
      window memory base (start - base) ++ cells := by
  have before : base + (start - base) ≤ start := Nat.le_of_eq (Nat.add_sub_cancel' low)
  rw [window_split _ low (Nat.le_add_right _ _), Nat.add_sub_cancel_left, window_store,
    window_store_of_disjoint (Or.inl before)]

/-- A window that agrees agrees on its first cells. -/
theorem window_of_longer {memory other : Nat → α} {start start' count short : Nat}
    (same : window memory start count = window other start' count) (le : short ≤ count) :
    window memory start short = window other start' short := by
  obtain ⟨rest, rfl⟩ := Nat.exists_eq_add_of_le le
  rw [window_add, window_add] at same
  exact List.append_inj_left same (by rw [length_window, length_window])

/-- One cell of a window is written. -/
theorem window_store_cell (memory : Nat → α) (start count place : Nat) (cell : α) :
    window (store memory (start + place) [cell]) start count =
      (window memory start count).set place cell := by
  induction count generalizing start place with
  | zero => rfl
  | succ count inductionHypothesis =>
      cases place with
      | zero =>
          rw [window, window, List.set_cons_zero]
          congr 1
          · exact Function.update_self _ _ _
          · exact window_store_of_disjoint (Or.inr (Nat.le_refl _))
      | succ place =>
          have here := inductionHypothesis (start + 1) place
          rw [Nat.add_right_comm, Nat.add_assoc] at here
          rw [window, window, List.set_cons_succ, here]
          congr 1
          exact store_of_outside (Or.inl (by omega))

theorem window_take (memory : Nat → α) (start : Nat) {short count : Nat} (le : short ≤ count) :
    (window memory start count).take short = window memory start short := by
  obtain ⟨rest, rfl⟩ := Nat.exists_eq_add_of_le le
  rw [window_add, List.take_left' (length_window _ _ _)]

/-! ### Page writes -/

theorem succ_mod_of_room {page start : Nat} (room : start % page + 1 < page) :
    (start + 1) % page = start % page + 1 := by
  rw [Nat.add_mod, Nat.mod_eq_of_lt (show 1 < page by omega), Nat.mod_eq_of_lt room]

theorem next_in_page {page start : Nat} (room : start % page + 1 < page) :
    page * (start / page) + (start + 1) % page = start + 1 := by
  rw [succ_mod_of_room room, ← Nat.add_assoc, Nat.div_add_mod]

/-- A page write that fits its page is a plain write. -/
theorem pageStore_eq_store {page start : Nat} {memory : Nat → α} {cells : List α}
    (fits : start % page + cells.length ≤ page) :
    pageStore page memory start cells = store memory start cells := by
  induction cells generalizing memory start with
  | nil => rfl
  | cons cell rest inductionHypothesis =>
      rw [List.length_cons] at fits
      rw [pageStore, store]
      cases rest with
      | nil => rfl
      | cons next rest =>
          rw [List.length_cons] at fits
          have room : start % page + 1 < page := by omega
          have fitsRest : (start + 1) % page + (next :: rest).length ≤ page := by
            rw [succ_mod_of_room room, List.length_cons]
            omega
          rw [next_in_page room, inductionHypothesis fitsRest]

end RttIctl.Lib.PagedMemory
