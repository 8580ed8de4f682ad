import RttIctl.Kernel.MemRealloc
import RttIctl.Lib.StepSystem

/-!
Owns the heap together with its callers: which buffers they hold and what they have
put there, and what holds after any sequence of calls. The buffers and their bytes
are all a caller knows; the heap carries them out.

It does not own what the buffers are used for.
-/

namespace RttIctl.Kernel

open Lib Lib.Chain Lib.PagedMemory Heap

/-- The heap, and the bytes the callers know of behind each pointer they hold. -/
structure Holding where
  heap : Heap
  buffers : Nat → Option (List UInt8)

inductive Call where
  | malloc (size : Nat)
  | calloc (count size : Nat)
  | realloc (rmem : Option Nat) (newsize : Nat)
  | free (rmem : Option Nat)
  | write (buffer offset : Nat) (byte : UInt8)
  deriving DecidableEq, Repr

namespace Holding

/-- A buffer is no longer held. -/
def drop (s : Holding) (heap : Heap) : Option Nat → Holding
  | none => ⟨heap, s.buffers⟩
  | some rmem => ⟨heap, Function.update s.buffers rmem none⟩

def hold (s : Holding) (heap : Heap) (p : Nat) (bytes : List UInt8) : Holding :=
  ⟨heap, Function.update s.buffers p (some bytes)⟩

/-- What the caller knows of a buffer of a new size: the bytes it had, and what it
finds behind them. -/
def regrown (heap : Heap) (p newsize : Nat) (bytes : List UInt8) : List UInt8 :=
  bytes.take newsize ++ window heap.bytes (p + bytes.length) (newsize - bytes.length)

/-- One call or one write of a caller. -/
def step (s : Holding) : Call → Option Holding
  | .malloc size =>
      (s.heap.rtMalloc size).map fun
        | (heap, none) => ⟨heap, s.buffers⟩
        | (heap, some p) => s.hold heap p (window heap.bytes p size)
  | .calloc count size =>
      (s.heap.rtCalloc count size).map fun
        | (heap, none) => ⟨heap, s.buffers⟩
        | (heap, some p) => s.hold heap p (List.replicate (count * size) 0)
  | .realloc rmem newsize =>
      (s.heap.rtRealloc rmem newsize).map fun
        | (heap, none) => if newsize = 0 then s.drop heap rmem else ⟨heap, s.buffers⟩
        | (heap, some p) =>
            (s.drop heap rmem).hold heap p
              (regrown heap p newsize ((rmem.bind s.buffers).getD []))
  | .free rmem => (s.heap.rtFree rmem).map fun heap => s.drop heap rmem
  | .write buffer offset byte =>
      some (s.hold { s.heap with bytes := store s.heap.bytes (buffer + offset) [byte] } buffer
        (((s.buffers buffer).getD []).set offset byte))

/-- What a caller keeps to: it passes pointers it holds, writes inside its buffers
and asks for sizes that can be aligned in 32 bits. -/
def Admits (s : Holding) : Call → Prop
  | .malloc size => size + 3 < 2 ^ 32
  | .calloc count size => count * size + 3 < 2 ^ 32
  | .realloc rmem newsize =>
      newsize + 3 < 2 ^ 32 ∧ ∀ p ∈ rmem, (s.buffers p).isSome = true
  | .free rmem => ∀ p ∈ rmem, (s.buffers p).isSome = true
  | .write buffer offset _ => offset < ((s.buffers buffer).getD []).length

instance (s : Holding) (call : Call) : Decidable (s.Admits call) := by
  cases call <;> unfold Admits <;> infer_instance

/-- All runs from a heap of which nothing is held. -/
def calls (heap : Heap) : StepSystem Holding Call :=
  ⟨⟨heap, fun _ => none⟩, step⟩

/-- Every buffer lies in a used block and holds what its owner knows; every used
block is held. -/
structure Sound (s : Holding) (tiles : List Tile) : Prop where
  order : Invariant s.heap tiles
  held : ∀ p bytes, s.buffers p = some bytes → ∃ tile ∈ tiles, tile.used = true ∧
    tile.start + sizeofStructMem = p ∧ p + bytes.length ≤ tile.stop ∧
      window s.heap.bytes p bytes.length = bytes
  owned : ∀ tile ∈ tiles, tile.used = true →
    (s.buffers (tile.start + sizeofStructMem)).isSome = true

variable {s s' : Holding} {tiles tiles' : List Tile} {heap heap' : Heap}

theorem buffers_hold (s : Holding) (heap : Heap) (p other : Nat) (bytes : List UInt8) :
    (s.hold heap p bytes).buffers other = if other = p then some bytes else s.buffers other :=
  Function.update_apply ..

theorem buffers_drop (s : Holding) (heap : Heap) (p other : Nat) :
    (s.drop heap (some p)).buffers other = if other = p then none else s.buffers other :=
  Function.update_apply ..

/-! ### One call -/

/-- The block that is given out is held from then on. -/
theorem Sound.give {given : Tile} {bytes : List UInt8} (sound : Sound s tiles)
    (order : Invariant heap' tiles') (turns : Turns s.heap tiles heap' tiles' [] [given])
    (isUsed : given.used = true)
    (fresh : ∀ other ∈ tiles, other.used = true → other.start ≠ given.start)
    (inside : given.start + sizeofStructMem + bytes.length ≤ given.stop)
    (there : window heap'.bytes (given.start + sizeofStructMem) bytes.length = bytes) :
    Sound (s.hold heap' (given.start + sizeofStructMem) bytes) tiles' := by
  refine ⟨order, fun p known isKnown => ?_, fun tile member tileUsed => ?_⟩
  · by_cases own : p = given.start + sizeofStructMem
    · subst own
      obtain rfl : bytes = known := by simpa [buffers_hold] using isKnown
      exact ⟨given, (turns.used given isUsed).mpr (Or.inr List.mem_cons_self), isUsed, rfl, inside,
        there⟩
    · have before : s.buffers p = some known := by simpa [buffers_hold, own] using isKnown
      obtain ⟨tile, member, tileUsed, rfl, room, same⟩ := sound.held p known before
      refine ⟨tile, (turns.used tile tileUsed).mpr (Or.inl ⟨member, List.not_mem_nil⟩), tileUsed,
        rfl, room, ?_⟩
      exact ((turns.kept tile member tileUsed List.not_mem_nil).window (Nat.le_refl _) room).trans
        same
  · rcases (turns.used tile tileUsed).mp member with ⟨old, _⟩ | isGiven
    · have elsewhere := fresh tile old tileUsed
      simpa [buffers_hold, elsewhere] using sound.owned tile old tileUsed
    · simp [buffers_hold, List.mem_singleton.mp isGiven]

/-- The block that is given back is no longer held. -/
theorem Sound.release {tile : Tile} (sound : Sound s tiles) (member : tile ∈ tiles)
    (order : Invariant heap' tiles') (turns : Turns s.heap tiles heap' tiles' [tile] []) :
    Sound (s.drop heap' (some (tile.start + sizeofStructMem))) tiles' := by
  refine ⟨order, fun p known isKnown => ?_, fun other otherMember isUsed => ?_⟩
  · have elsewhere : p ≠ tile.start + sizeofStructMem := by
      rintro rfl
      simp [buffers_drop] at isKnown
    have before : s.buffers p = some known := by
      simpa [buffers_drop, elsewhere] using isKnown
    obtain ⟨other, otherMember, isUsed, rfl, room, same⟩ := sound.held p known before
    have stays : other ∉ [tile] := by
      intro isTile
      rw [List.mem_singleton.mp isTile] at elsewhere
      exact elsewhere rfl
    exact ⟨other, (turns.used other isUsed).mpr (Or.inl ⟨otherMember, stays⟩), isUsed, rfl, room,
      ((turns.kept other otherMember isUsed stays).window (Nat.le_refl _) room).trans same⟩
  · obtain ⟨old, stays⟩ := ((turns.used other isUsed).mp otherMember).resolve_right
      List.not_mem_nil
    have elsewhere : other.start ≠ tile.start := by
      intro same
      exact stays (List.mem_singleton.mpr (sound.order.blocks.chain.eq_of_start member old same))
    simpa [buffers_drop, elsewhere] using sound.owned other old isUsed

/-- The block is exchanged for another. -/
theorem Sound.exchange {tile given : Tile} {bytes : List UInt8} (sound : Sound s tiles)
    (member : tile ∈ tiles) (order : Invariant heap' tiles')
    (turns : Turns s.heap tiles heap' tiles' [tile] [given]) (isUsed : given.used = true)
    (fresh : given.start = tile.start ∨
      ∀ other ∈ tiles, other.used = true → other.start ≠ given.start)
    (inside : given.start + sizeofStructMem + bytes.length ≤ given.stop)
    (there : window heap'.bytes (given.start + sizeofStructMem) bytes.length = bytes) :
    Sound ((s.drop heap' (some (tile.start + sizeofStructMem))).hold heap'
      (given.start + sizeofStructMem) bytes) tiles' := by
  refine ⟨order, fun p known isKnown => ?_, fun other otherMember otherUsed => ?_⟩
  · by_cases own : p = given.start + sizeofStructMem
    · subst own
      obtain rfl : bytes = known := by simpa [buffers_hold] using isKnown
      exact ⟨given, (turns.used given isUsed).mpr (Or.inr List.mem_cons_self), isUsed, rfl, inside,
        there⟩
    · have elsewhere : p ≠ tile.start + sizeofStructMem := by
        rintro rfl
        rw [buffers_hold, if_neg own, buffers_drop, if_pos rfl] at isKnown
        cases isKnown
      have before : s.buffers p = some known := by
        simpa [buffers_hold, buffers_drop, own, elsewhere] using isKnown
      obtain ⟨other, otherMember, otherUsed, rfl, room, same⟩ := sound.held p known before
      have stays : other ∉ [tile] := by
        intro isTile
        rw [List.mem_singleton.mp isTile] at elsewhere
        exact elsewhere rfl
      exact ⟨other, (turns.used other otherUsed).mpr (Or.inl ⟨otherMember, stays⟩), otherUsed, rfl,
        room,
        ((turns.kept other otherMember otherUsed stays).window (Nat.le_refl _) room).trans same⟩
  · rcases (turns.used other otherUsed).mp otherMember with ⟨old, stays⟩ | isGiven
    · have elsewhere : other.start ≠ tile.start := by
        intro same
        exact stays (List.mem_singleton.mpr (sound.order.blocks.chain.eq_of_start member old same))
      have notGiven : other.start ≠ given.start := by
        rcases fresh with same | fresh
        · rw [same]
          exact elsewhere
        · exact fresh other old otherUsed
      simpa [buffers_hold, buffers_drop, elsewhere, notGiven] using sound.owned other old otherUsed
    · simp [buffers_hold, List.mem_singleton.mp isGiven]

/-- A caller's bytes behind the pointer that was just given out. -/
theorem turns_write {given : Tile} {address : Nat} {bytes : List UInt8}
    (order : Invariant heap' tiles') (turns : Turns heap tiles heap' tiles' [] [given])
    (isUsed : given.used = true)
    (fresh : ∀ other ∈ tiles, other.used = true → other.start ≠ given.start)
    (low : given.start + sizeofStructMem ≤ address) (high : address + bytes.length ≤ given.stop) :
    Turns heap tiles { heap' with bytes := store heap'.bytes address bytes } tiles' []
      [given] := by
  have member : given ∈ tiles' := (turns.used given isUsed).mpr (Or.inr List.mem_cons_self)
  obtain ⟨blocks, untouched⟩ := order.blocks.write member low high
  refine ⟨blocks, turns.size, turns.used, fun tile old tileUsed stays => ?_⟩
  have differs : tile ≠ given := by
    rintro rfl
    exact fresh tile old isUsed rfl
  exact (turns.kept tile old tileUsed stays).trans
    (untouched tile ((turns.used tile tileUsed).mpr (Or.inl ⟨old, stays⟩)) differs)

theorem le_request {size : Nat} (small : size + 3 < 2 ^ 32) : size ≤ request size := by
  unfold request rtAlign
  omega

/-- The block of a buffer that is held. -/
theorem Sound.block {p : Nat} (sound : Sound s tiles) (held : (s.buffers p).isSome = true) :
    ∃ before tile after, tiles = before ++ tile :: after ∧ tile.used = true ∧
      p = tile.start + sizeofStructMem := by
  obtain ⟨bytes, known⟩ := Option.isSome_iff_exists.mp held
  obtain ⟨tile, member, isUsed, rfl, _⟩ := sound.held p bytes known
  obtain ⟨before, after, rfl⟩ := List.append_of_mem member
  exact ⟨before, tile, after, rfl, isUsed, rfl⟩

theorem Sound.malloc (sound : Sound s tiles) {size : Nat} (small : size + 3 < 2 ^ 32) :
    ∃ s' tiles', s.step (.malloc size) = some s' ∧ Sound s' tiles' ∧
      (Below s.heap tiles → Below s'.heap tiles') := by
  rcases sound.order.malloc size with ⟨refused, _⟩ |
    ⟨heap', tiles', tile, stop, called, member, fits, _, long, order, turns, below⟩
  · exact ⟨s, tiles, by rw [step, refused]; rfl, sound, id⟩
  · have enough := le_request small
    refine ⟨_, tiles', by rw [step, called]; rfl, sound.give order turns rfl
      (sound.order.blocks.fresh _ member fits.1 rfl) ?_ ?_, fun low => (below low).1⟩
    · rw [length_window]
      dsimp only
      omega
    · rw [length_window]

theorem Sound.calloc (sound : Sound s tiles) {count size : Nat}
    (small : count * size + 3 < 2 ^ 32) :
    ∃ s' tiles', s.step (.calloc count size) = some s' ∧ Sound s' tiles' ∧
      (Below s.heap tiles → Below s'.heap tiles') := by
  have wraps : count * size % 2 ^ 32 = count * size := Nat.mod_eq_of_lt (by omega)
  rcases sound.order.malloc (count * size) with ⟨refused, _⟩ |
    ⟨heap', tiles', tile, stop, called, member, fits, _, long, order, turns, below⟩
  · refine ⟨s, tiles, ?_, sound, id⟩
    rw [step, Heap.rtCalloc, wraps, refused]
    rfl
  · have enough := le_request small
    have fresh := sound.order.blocks.fresh ⟨tile.start, stop, true⟩ member fits.1 rfl
    have given : ⟨tile.start, stop, true⟩ ∈ tiles' :=
      (turns.used _ rfl).mpr (Or.inr List.mem_cons_self)
    have zeros : (List.replicate (count * size) (0 : UInt8)).length = count * size :=
      List.length_replicate
    have inside : tile.start + sizeofStructMem +
        (List.replicate (count * size) (0 : UInt8)).length ≤ stop := by omega
    have there := window_store heap'.bytes (tile.start + sizeofStructMem)
      (List.replicate (count * size) 0)
    refine ⟨_, tiles', ?_, sound.give (order.write given (Nat.le_refl _) inside)
      (turns_write order turns rfl fresh (Nat.le_refl _) inside) rfl fresh inside there,
      fun low => (below low).1⟩
    rw [step, Heap.rtCalloc, wraps, called]
    rfl

theorem Sound.free (sound : Sound s tiles) {rmem : Option Nat}
    (held : ∀ p ∈ rmem, (s.buffers p).isSome = true) :
    ∃ s' tiles', s.step (.free rmem) = some s' ∧ Sound s' tiles' ∧
      (Below s.heap tiles → Below s'.heap tiles') := by
  cases rmem with
  | none => exact ⟨s, tiles, rfl, sound, id⟩
  | some p =>
      obtain ⟨before, tile, after, rfl, isUsed, rfl⟩ := sound.block (held p rfl)
      obtain ⟨heap', tiles', freed, order, turns, below⟩ := sound.order.free isUsed
      exact ⟨_, tiles', by rw [step, freed]; rfl, sound.release (by simp) order turns, below⟩

theorem Sound.write (sound : Sound s tiles) {buffer offset : Nat} {byte : UInt8}
    (inside : offset < ((s.buffers buffer).getD []).length) :
    ∃ s', s.step (.write buffer offset byte) = some s' ∧ Sound s' tiles ∧
      (Below s.heap tiles → Below s'.heap tiles) := by
  obtain ⟨bytes, known⟩ : ∃ bytes, s.buffers buffer = some bytes := by
    cases known : s.buffers buffer with
    | none =>
        rw [known] at inside
        exact absurd inside (Nat.not_lt_zero _)
    | some bytes => exact ⟨bytes, rfl⟩
  rw [known, Option.getD_some] at inside
  obtain ⟨tile, member, isUsed, rfl, room, same⟩ := sound.held buffer bytes known
  have high : tile.start + sizeofStructMem + offset + [byte].length ≤ tile.stop := by
    rw [List.length_singleton]
    omega
  have low : tile.start + sizeofStructMem ≤ tile.start + sizeofStructMem + offset :=
    Nat.le_add_right _ _
  obtain ⟨blocks, untouched⟩ := sound.order.blocks.write member low high
  have turns : Turns s.heap tiles
      { s.heap with
        bytes := store s.heap.bytes (tile.start + sizeofStructMem + offset) [byte] }
      tiles [tile] [tile] := by
    refine ⟨blocks, rfl, fun other _ => ?_, fun other here _ stays =>
      untouched other here (mt List.mem_singleton.mpr stays)⟩
    by_cases own : other = tile <;> simp [own, member]
  have there : window (store s.heap.bytes (tile.start + sizeofStructMem + offset) [byte])
      (tile.start + sizeofStructMem) (bytes.set offset byte).length = bytes.set offset byte := by
    rw [List.length_set, window_store_cell, same]
  have kept := sound.exchange member (sound.order.write member low high) turns isUsed (Or.inl rfl)
    (by rw [List.length_set]; exact room) there
  refine ⟨_, ?_, kept, id⟩
  rw [step, known, Option.getD_some, drop, hold, hold, Function.update_idem]

theorem length_regrown (heap : Heap) (p newsize : Nat) (bytes : List UInt8) :
    (regrown heap p newsize bytes).length = newsize := by
  rw [regrown, List.length_append, length_window, List.length_take]
  omega

/-- Behind a pointer that kept the first bytes there is what its owner expects. -/
theorem window_regrown {p newsize : Nat} {bytes : List UInt8}
    (same : window heap.bytes p (min newsize bytes.length) = bytes.take newsize) :
    window heap.bytes p newsize = regrown heap p newsize bytes := by
  rcases Nat.le_total newsize bytes.length with less | more
  · rw [Nat.min_eq_left less] at same
    rw [same, regrown, Nat.sub_eq_zero_of_le less, window, List.append_nil]
  · rw [Nat.min_eq_right more] at same
    rw [regrown, ← same, ← window_add, Nat.add_sub_cancel' more]

theorem rtAlign_eq_zero_iff {size : Nat} (small : size + 3 < 2 ^ 32) :
    rtAlign size = 0 ↔ size = 0 := by
  unfold rtAlign
  omega

/-- `rt_realloc` of no block is `rt_malloc`. -/
theorem Sound.reallocNull (sound : Sound s tiles) {newsize : Nat} (small : newsize + 3 < 2 ^ 32) :
    ∃ s' tiles', s.step (.realloc none newsize) = some s' ∧ Sound s' tiles' ∧
      (Below s.heap tiles → Below s'.heap tiles') := by
  have aligned : newsize ≤ rtAlign newsize := by
    unfold rtAlign
    omega
  have zeroIff := rtAlign_eq_zero_iff small
  by_cases tooLarge : s.heap.memSizeAligned < rtAlign newsize
  · have positive : newsize ≠ 0 := by omega
    refine ⟨s, tiles, ?_, sound, id⟩
    rw [step, Heap.rtRealloc]
    rw [if_pos tooLarge, Option.map_some]
    exact congrArg some (if_neg positive)
  by_cases zero : newsize = 0
  · refine ⟨s, tiles, ?_, sound, id⟩
    rw [step, Heap.rtRealloc]
    rw [if_neg tooLarge, if_pos (zeroIff.mpr zero), Heap.rtFree, Option.map_some,
      Option.map_some]
    exact congrArg some (if_pos zero)
  have unfolded : s.heap.rtRealloc none newsize = s.heap.rtMalloc (rtAlign newsize) := by
    rw [Heap.rtRealloc]
    rw [if_neg tooLarge, if_neg (mt zeroIff.mp zero)]
  rcases sound.order.malloc (rtAlign newsize) with ⟨refused, _⟩ |
    ⟨heap', tiles', tile, stop, called, member, fits, _, long, order, turns, below⟩
  · refine ⟨s, tiles, ?_, sound, id⟩
    rw [step, unfolded, refused, Option.map_some]
    exact congrArg some (if_neg zero)
  · have enough : rtAlign newsize ≤ request (rtAlign newsize) := by
      rw [request, rtAlign_rtAlign]
      exact Nat.le_max_left _ _
    refine ⟨_, tiles', by rw [step, unfolded, called]; rfl, sound.give order turns rfl
      (sound.order.blocks.fresh _ member fits.1 rfl) ?_ ?_, fun low => (below low).1⟩
    · rw [length_regrown]
      dsimp only
      omega
    · rw [length_regrown]
      exact window_regrown (by simp [window])

theorem Sound.realloc (sound : Sound s tiles) {rmem : Option Nat} {newsize : Nat}
    (small : newsize + 3 < 2 ^ 32) (held : ∀ p ∈ rmem, (s.buffers p).isSome = true) :
    ∃ s' tiles', s.step (.realloc rmem newsize) = some s' ∧ Sound s' tiles' := by
  have aligned : newsize ≤ rtAlign newsize := by
    unfold rtAlign
    omega
  have zeroIff := rtAlign_eq_zero_iff small
  cases rmem with
  | none =>
      obtain ⟨s', tiles', taken, next, _⟩ := sound.reallocNull small
      exact ⟨s', tiles', taken, next⟩
  | some p =>
      obtain ⟨bytes, known⟩ := Option.isSome_iff_exists.mp (held p rfl)
      obtain ⟨tile, member, isUsed, rfl, room, same⟩ := sound.held p bytes known
      obtain ⟨before, after, rfl⟩ := List.append_of_mem member
      by_cases zero : newsize = 0
      · obtain ⟨heap', tiles', freed, order, turns, _⟩ := sound.order.free isUsed
        refine ⟨_, tiles', ?_, sound.release member order turns⟩
        have aligns := zeroIff.mpr zero
        rw [step, Heap.rtRealloc]
        dsimp only
        rw [aligns, if_neg (Nat.not_lt_zero _), if_pos rfl, freed, Option.map_some,
          Option.map_some]
        exact congrArg some (if_pos zero)
      rcases sound.order.realloc isUsed newsize (mt zeroIff.mp zero) with refused |
        ⟨heap', tiles', given, called, givenUsed, order, turns, long, kept, fresh⟩
      · refine ⟨s, _, ?_, sound⟩
        rw [step, refused, Option.map_some]
        exact congrArg some (if_neg zero)
      · refine ⟨_, tiles', by rw [step, called]; rfl, sound.exchange member order turns givenUsed
          fresh ?_ ?_⟩
        · rw [length_regrown]
          omega
        · rw [length_regrown, Option.bind_some, known, Option.getD_some]
          apply window_regrown
          rw [window_of_longer kept (by omega), ← window_take _ _ (Nat.min_le_right _ _), same,
            ← List.take_take, List.take_length]

/-! ### Runs -/

/-- The two headers of `rt_system_heap_init`. -/
theorem first_blocks (start : Heap) {first last : Heap}
    (isFirst : first = (((start.setMagic 0 heapMagic).setNext 0 start.heapEnd).setPrev 0 0).setUsed
      0 0)
    (isLast : last = (((first.setMagic start.heapEnd heapMagic).setUsed start.heapEnd 1).setNext
      start.heapEnd start.heapEnd).setPrev start.heapEnd start.heapEnd)
    (aligned : start.heapEnd % 4 = 0) (fits : start.heapEnd < 2 ^ 32)
    (roomy : minSizeAligned ≤ start.memSizeAligned) :
    Blocks last [⟨0, start.heapEnd, false⟩] ∧ last.heapEnd = start.heapEnd := by
  have twelve : sizeofStructMem = 12 := rfl
  have smallest : minSizeAligned = 12 := rfl
  have total : start.heapEnd = start.memSizeAligned + sizeofStructMem := rfl
  have beginning : Touches start first [0] := by
    rw [isFirst]
    exact (((touches_setMagic _ _).trans (touches_setNext _ _ _)).trans
      (touches_setPrev _ _ _)).trans (touches_setUsed _ _ _)
  have ending : Touches first last [start.heapEnd] := by
    rw [isLast]
    exact (((touches_setMagic _ _).trans (touches_setUsed _ _ _)).trans
      (touches_setNext _ _ _)).trans (touches_setPrev _ _ _)
  have apart : Apart [start.heapEnd] 0 := by
    intro other isEnd
    rw [List.mem_singleton.mp isEnd]
    omega
  have firstLink : first.link 0 = ⟨false, start.heapEnd, 0⟩ := by
    rw [isFirst, link_setUsed _ _ (by decide), link_setPrev _ _ (by decide), link_setNext _ _ fits]
    rfl
  have lastLink : last.link start.heapEnd = ⟨true, start.heapEnd, start.heapEnd⟩ := by
    rw [isLast, link_setPrev _ _ fits, link_setNext _ _ fits, link_setUsed _ _ (by decide)]
    rfl
  have firstMagic : first.magicAt 0 = heapMagic := by
    rw [isFirst, magicAt_setUsed, magicAt_setPrev, magicAt_setNext, magicAt_setMagic]
  have sameEnd : last.heapEnd = start.heapEnd := ending.heapEnd.trans beginning.heapEnd
  refine ⟨⟨⟨rfl, by dsimp only; omega, (ending.link apart).trans firstLink, sameEnd.symm⟩, ?_,
    ?_, ?_, ?_, ?_⟩, sameEnd⟩
  · rw [sameEnd, lastLink]
  · intro tile member
    rw [List.mem_singleton.mp member]
    exact ending.magic 0 (fun other isEnd => Or.inr (apart other isEnd)) firstMagic
  · intro tile member
    rw [List.mem_singleton.mp member]
    rfl
  · rw [sameEnd]
    exact aligned
  · rw [sameEnd]
    exact fits

/-- `rt_system_heap_init` leaves one free block. -/
theorem init_sound {memory : Nat → UInt8} {beginAddr endAddr : Nat}
    (initialised : rtSystemHeapInit memory beginAddr endAddr = some heap)
    (address : endAddr < 2 ^ 32) (roomy : minSizeAligned ≤ heap.memSizeAligned) :
    Sound ⟨heap, fun _ => none⟩ [⟨0, heap.heapEnd, false⟩] ∧
      Below heap [⟨0, heap.heapEnd, false⟩] := by
  have twelve : sizeofStructMem = 12 := rfl
  unfold Heap.rtSystemHeapInit at initialised
  dsimp only at initialised
  split at initialised
  · next room =>
      have isHeap := Option.some.inj initialised
      have alignedBegin := rtAlign_aligned beginAddr
      generalize isSize : endAddr / 4 * 4 - rtAlign beginAddr - 2 * sizeofStructMem = size at isHeap
      have memSize : heap.memSizeAligned = size := by
        rw [← isHeap]
        rfl
      have total : heap.heapEnd = size + sizeofStructMem := by
        rw [Heap.heapEnd, memSize]
      have counters : heap.lfree = 0 ∧ heap.usedMem = 0 := by
        rw [← isHeap]
        exact ⟨rfl, rfl⟩
      rw [memSize] at roomy
      obtain ⟨blocks, _⟩ := first_blocks ⟨memory, size, 0, 0, 0⟩ rfl rfl
        (show (size + sizeofStructMem) % 4 = 0 by omega)
        (show size + sizeofStructMem < 2 ^ 32 by omega) roomy
      have divided : Blocks heap [⟨0, heap.heapEnd, false⟩] := by
        rw [total, ← isHeap]
        exact blocks.of_same rfl rfl
      refine ⟨⟨⟨divided, List.isChain_singleton _, Or.inr ⟨_, List.mem_cons_self, counters.1.symm⟩,
        fun atEnd => ?_, counters.2, ?_⟩, fun _ _ known => ?_, fun tile member isUsed => ?_⟩,
        fun _ _ _ => ?_⟩
      · have : heap.lfree = heap.heapEnd := atEnd
        omega
      · rw [show (Holding.mk heap fun _ => none).heap = heap from rfl, memSize]
        exact roomy
      · cases known
      · rw [List.mem_singleton.mp member] at isUsed
        cases isUsed
      · rw [counters.1]
        exact Nat.zero_le _
  · cases initialised

/-- A call that keeps to the rules returns, and the buffers are sound again. -/
theorem Sound.step (sound : Sound s tiles) {call : Call} (admitted : s.Admits call) :
    ∃ s' tiles', s.step call = some s' ∧ Sound s' tiles' := by
  cases call with
  | malloc size =>
      obtain ⟨s', tiles', taken, next, _⟩ := sound.malloc admitted
      exact ⟨s', tiles', taken, next⟩
  | calloc count size =>
      obtain ⟨s', tiles', taken, next, _⟩ := sound.calloc admitted
      exact ⟨s', tiles', taken, next⟩
  | realloc rmem newsize => exact sound.realloc admitted.1 admitted.2
  | free rmem =>
      obtain ⟨s', tiles', taken, next, _⟩ := sound.free admitted
      exact ⟨s', tiles', taken, next⟩
  | write buffer offset byte =>
      obtain ⟨s', taken, next, _⟩ := sound.write admitted
      exact ⟨s', tiles, taken, next⟩

/-- No held block is resized. -/
def AdmitsFixed (s : Holding) (call : Call) : Prop :=
  s.Admits call ∧ ∀ p newsize, call ≠ .realloc (some p) newsize

/-- Without resizing, `lfree` stays below every free block. -/
theorem Sound.step_below (sound : Sound s tiles) (below : Below s.heap tiles) {call : Call}
    (admitted : s.AdmitsFixed call) :
    ∃ s' tiles', s.step call = some s' ∧ Sound s' tiles' ∧ Below s'.heap tiles' := by
  obtain ⟨admitted, fixed⟩ := admitted
  cases call with
  | malloc size =>
      obtain ⟨s', tiles', taken, next, lower⟩ := sound.malloc admitted
      exact ⟨s', tiles', taken, next, lower below⟩
  | calloc count size =>
      obtain ⟨s', tiles', taken, next, lower⟩ := sound.calloc admitted
      exact ⟨s', tiles', taken, next, lower below⟩
  | realloc rmem newsize =>
      cases rmem with
      | none =>
          obtain ⟨s', tiles', taken, next, lower⟩ := sound.reallocNull admitted.1
          exact ⟨s', tiles', taken, next, lower below⟩
      | some p => exact absurd rfl (fixed p newsize)
  | free rmem =>
      obtain ⟨s', tiles', taken, next, lower⟩ := sound.free admitted
      exact ⟨s', tiles', taken, next, lower below⟩
  | write buffer offset byte =>
      obtain ⟨s', taken, next, lower⟩ := sound.write admitted
      exact ⟨s', tiles, taken, next, lower below⟩

/-! ### From the start -/

/-- A heap of 104 bytes. -/
def smallHeap : Heap :=
  (rtSystemHeapInit (fun _ => 0) 4096 4224).get (by decide)

theorem smallHeap_init : rtSystemHeapInit (fun _ => 0) 4096 4224 = some smallHeap :=
  (Option.some_get _).symm

/-- A buffer is written and moves when it is resized. -/
def smallRun : Holding :=
  (calls smallHeap).runWhile (fun s call => decide (s.Admits call)) (calls smallHeap).init
    [.malloc 10, .write 12 0 7, .malloc 8, .realloc (some 12) 20]

theorem smallRun_reaches : (calls smallHeap).Reaches Admits smallRun :=
  ((calls smallHeap).runWhile_reaches _ _).mono fun _ _ => of_decide_eq_true

/-- The first buffer of the heap. -/
theorem smallHeap_malloc : ∃ heap, smallHeap.rtMalloc 10 = some (heap, some 12) ∧
    (calls smallHeap).Reaches AdmitsFixed
      ((calls smallHeap).init.hold heap 12 (window heap.bytes 12 10)) := by
  have called : (smallHeap.rtMalloc 10).map Prod.snd = some (some 12) := by decide
  obtain ⟨⟨heap, _⟩, isResult, rfl⟩ := Option.map_eq_some_iff.mp called
  have admitted : AdmitsFixed (calls smallHeap).init (.malloc 10) :=
    ⟨by decide, fun _ _ same => Call.noConfusion same⟩
  refine ⟨heap, isResult, StepSystem.Reaches.init.step admitted ?_⟩
  rw [show (calls smallHeap).step = step from rfl, step,
    show (calls smallHeap).init.heap = smallHeap from rfl, isResult]
  rfl

section FromInit

variable {memory : Nat → UInt8} {beginAddr endAddr : Nat}

theorem reaches_sound (initialised : rtSystemHeapInit memory beginAddr endAddr = some heap)
    (address : endAddr < 2 ^ 32) (roomy : minSizeAligned ≤ heap.memSizeAligned)
    (reach : (calls heap).Reaches Admits s) : ∃ tiles, Sound s tiles := by
  apply reach.invariant fun s => ∃ tiles, Sound s tiles
  · exact ⟨_, (init_sound initialised address roomy).1⟩
  · rintro s call s' ⟨tiles, sound⟩ admitted taken
    obtain ⟨next, tiles', result, soundNext⟩ := sound.step admitted
    rw [show (calls heap).step s call = s.step call from rfl, result] at taken
    obtain rfl := Option.some.inj taken
    exact ⟨tiles', soundNext⟩

theorem reaches_below (initialised : rtSystemHeapInit memory beginAddr endAddr = some heap)
    (address : endAddr < 2 ^ 32) (roomy : minSizeAligned ≤ heap.memSizeAligned)
    (reach : (calls heap).Reaches AdmitsFixed s) : ∃ tiles, Sound s tiles ∧ Below s.heap tiles := by
  apply reach.invariant fun s => ∃ tiles, Sound s tiles ∧ Below s.heap tiles
  · exact ⟨_, init_sound initialised address roomy⟩
  · rintro s call s' ⟨tiles, sound, below⟩ admitted taken
    obtain ⟨next, tiles', result, soundNext, belowNext⟩ := sound.step_below below admitted
    rw [show (calls heap).step s call = s.step call from rfl, result] at taken
    obtain rfl := Option.some.inj taken
    exact ⟨tiles', soundNext, belowNext⟩

/-- Whatever is called, every buffer is aligned, lies in the heap apart from the
others and their headers, and holds what its owner has put there. -/
theorem buffers_kept (initialised : rtSystemHeapInit memory beginAddr endAddr = some heap)
    (address : endAddr < 2 ^ 32) (roomy : minSizeAligned ≤ heap.memSizeAligned)
    (reach : (calls heap).Reaches Admits s) :
    (∀ p bytes, s.buffers p = some bytes → p % 4 = 0 ∧ sizeofStructMem ≤ p ∧
        p + bytes.length ≤ s.heap.heapEnd ∧ window s.heap.bytes p bytes.length = bytes) ∧
      ∀ p q first second, s.buffers p = some first → s.buffers q = some second → p < q →
        p + first.length + sizeofStructMem ≤ q := by
  obtain ⟨tiles, sound⟩ := reaches_sound initialised address roomy reach
  have chain := sound.order.blocks.chain
  constructor
  · intro p bytes known
    obtain ⟨tile, member, _, rfl, room, same⟩ := sound.held p bytes known
    have twelve : sizeofStructMem = 12 := rfl
    have bound := chain.bounds member
    have aligned := sound.order.blocks.aligned tile member
    exact ⟨by omega, Nat.le_add_left _ _, by omega, same⟩
  · intro p q first second isFirst isSecond less
    obtain ⟨tile, member, _, rfl, room, _⟩ := sound.held p first isFirst
    obtain ⟨other, otherMember, _, rfl, _, _⟩ := sound.held q second isSecond
    have outside := chain.boundary_outside (boundary_start otherMember) member
    omega

theorem buffers_kept_small : ∃ bytes, smallRun.buffers 60 = some bytes ∧ bytes.head? = some 7 ∧
    window smallRun.heap.bytes 60 bytes.length = bytes := by
  obtain ⟨bytes, known⟩ := Option.isSome_iff_exists.mp
    (by decide : (smallRun.buffers 60).isSome = true)
  have seven : (smallRun.buffers 60).bind List.head? = some 7 := by decide
  rw [known, Option.bind_some] at seven
  have kept := buffers_kept smallHeap_init (by decide) (by decide) smallRun_reaches
  exact ⟨bytes, known, seven, (kept.1 60 bytes known).2.2.2⟩

/-- A call that keeps to the rules always returns: no assertion fails and no walk
over the blocks runs on. -/
theorem calls_return (initialised : rtSystemHeapInit memory beginAddr endAddr = some heap)
    (address : endAddr < 2 ^ 32) (roomy : minSizeAligned ≤ heap.memSizeAligned)
    (reach : (calls heap).Reaches Admits s) {call : Call} (admitted : s.Admits call) :
    (s.step call).isSome = true := by
  obtain ⟨tiles, sound⟩ := reaches_sound initialised address roomy reach
  obtain ⟨s', _, taken, _⟩ := sound.step admitted
  exact Option.isSome_iff_exists.mpr ⟨s', taken⟩

theorem calls_return_small : (smallRun.step (.free (some 60))).isSome = true :=
  calls_return smallHeap_init (by decide) (by decide) smallRun_reaches (by decide)

/-- With nothing held the heap is one free block again, and the next request whose
aligned size is smaller than the heap gets its start. -/
theorem all_given_back (initialised : rtSystemHeapInit memory beginAddr endAddr = some heap)
    (address : endAddr < 2 ^ 32) (roomy : minSizeAligned ≤ heap.memSizeAligned)
    (reach : (calls heap).Reaches Admits s) (nothing : ∀ p, s.buffers p = none) :
    s.heap.usedMem = 0 ∧ s.heap.lfree = 0 ∧ s.heap.link 0 = ⟨false, s.heap.heapEnd, 0⟩ ∧
      ∀ size, 0 < size → request size < s.heap.memSizeAligned →
        ∃ heap', s.heap.rtMalloc size = some (heap', some sizeofStructMem) := by
  obtain ⟨tiles, sound⟩ := reaches_sound initialised address roomy reach
  have allFree : ∀ tile ∈ tiles, tile.used = false := by
    intro tile member
    cases isUsed : tile.used with
    | false => rfl
    | true =>
        have held := sound.owned tile member isUsed
        rw [nothing] at held
        cases held
  have total : s.heap.heapEnd = s.heap.memSizeAligned + sizeofStructMem := rfl
  have twelve : sizeofStructMem = 12 := rfl
  have smallest : minSizeAligned = 12 := rfl
  have order := sound.order
  obtain rfl := order.blocks.chain.single order.coalesced allFree (by omega)
  have lfree : s.heap.lfree = 0 := by
    rcases order.lowest with atEnd | ⟨tile, member, isStart⟩
    · obtain ⟨tile, member, isUsed⟩ := order.full atEnd
      rw [allFree tile member] at isUsed
      cases isUsed
    · rw [← isStart, List.mem_singleton.mp member]
  refine ⟨order.counted, lfree, order.blocks.chain.2.2.1, fun size positive less => ?_⟩
  have free : Fits s.heap (request size) ⟨0, s.heap.heapEnd, false⟩ :=
    ⟨rfl, by dsimp only; omega, by dsimp only; omega⟩
  have below : Below s.heap [⟨0, s.heap.heapEnd, false⟩] := by
    intro tile _ _
    rw [lfree]
    exact Nat.zero_le _
  rcases order.malloc size with ⟨_, none⟩ | ⟨heap', _, tile, _, called, member, _⟩
  · rcases none below with zero | nothingFits
    · omega
    · exact absurd free (nothingFits _ List.mem_cons_self)
  · rw [List.mem_singleton.mp member] at called
    exact ⟨heap', by rw [called, Nat.zero_add]⟩

theorem all_given_back_small : ∃ s, (calls smallHeap).Reaches Admits s ∧
    s.heap.usedMem = 0 ∧ s.heap.link 0 = ⟨false, s.heap.heapEnd, 0⟩ := by
  obtain ⟨heap, _, fixed⟩ := smallHeap_malloc
  have reach := fixed.mono fun _ _ => And.left
  obtain ⟨tiles, sound⟩ := reaches_sound smallHeap_init (by decide) (by decide) reach
  have held : ∀ p ∈ some 12, (((calls smallHeap).init.hold heap 12
      (window heap.bytes 12 10)).buffers p).isSome = true := by
    intro p isFirst
    rw [← Option.mem_some_iff.mp isFirst, buffers_hold, if_pos rfl]
    rfl
  obtain ⟨_, tiles', taken, soundBack, _⟩ := sound.free held
  obtain ⟨heap', _, rfl⟩ := Option.map_eq_some_iff.mp taken
  have admitted : Admits ((calls smallHeap).init.hold heap 12 (window heap.bytes 12 10))
      (.free (some 12)) := held
  have back := reach.step admitted taken
  have nothing : ∀ p, (drop ((calls smallHeap).init.hold heap 12 (window heap.bytes 12 10)) heap'
      (some 12)).buffers p = none := by
    intro p
    rw [buffers_drop, buffers_hold]
    split
    · rfl
    · rfl
  have result := all_given_back smallHeap_init (by decide) (by decide) back nothing
  exact ⟨_, back, result.1, result.2.2.1⟩

/-- While no block is resized, `rt_malloc` takes the lowest free block that is large
enough for the aligned size, and fails only when there is none. A block that ends
with the heap has to be larger than that. -/
theorem malloc_first_fit (initialised : rtSystemHeapInit memory beginAddr endAddr = some heap)
    (address : endAddr < 2 ^ 32) (roomy : minSizeAligned ≤ heap.memSizeAligned)
    (reach : (calls heap).Reaches AdmitsFixed s) :
    ∃ tiles, Blocks s.heap tiles ∧ ∀ size, 0 < size →
      (s.heap.rtMalloc size = some (s.heap, none) ∧
        ∀ tile ∈ tiles, ¬ Fits s.heap (request size) tile) ∨
      ∃ heap', ∃ tile ∈ tiles,
        s.heap.rtMalloc size = some (heap', some (tile.start + sizeofStructMem)) ∧
        Fits s.heap (request size) tile ∧
        ∀ other ∈ tiles, Fits s.heap (request size) other → tile.start ≤ other.start := by
  obtain ⟨tiles, sound, below⟩ := reaches_below initialised address roomy reach
  refine ⟨tiles, sound.order.blocks, fun size positive => ?_⟩
  rcases sound.order.malloc size with ⟨refused, none⟩ |
    ⟨heap', _, tile, _, called, member, fits, _, _, _, _, lowest⟩
  · exact Or.inl ⟨refused, (none below).resolve_left (Nat.ne_of_gt positive)⟩
  · exact Or.inr ⟨heap', tile, member, called, fits, (lowest below).2⟩

theorem malloc_first_fit_small : ∃ heap tiles, smallHeap.rtMalloc 10 = some (heap, some 12) ∧
    Blocks heap tiles ∧ ∀ size, 0 < size →
      (heap.rtMalloc size = some (heap, none) ∧
        ∀ tile ∈ tiles, ¬ Fits heap (request size) tile) ∨
      ∃ heap', ∃ tile ∈ tiles,
        heap.rtMalloc size = some (heap', some (tile.start + sizeofStructMem)) ∧
        Fits heap (request size) tile ∧
        ∀ other ∈ tiles, Fits heap (request size) other → tile.start ≤ other.start := by
  obtain ⟨heap, called, reach⟩ := smallHeap_malloc
  obtain ⟨tiles, blocks, first⟩ := malloc_first_fit smallHeap_init (by decide) (by decide) reach
  exact ⟨heap, tiles, called, blocks, first⟩

/-- `used_mem` counts the blocks that are held, with their headers. -/
theorem used_mem_exact (initialised : rtSystemHeapInit memory beginAddr endAddr = some heap)
    (address : endAddr < 2 ^ 32) (roomy : minSizeAligned ≤ heap.memSizeAligned)
    (reach : (calls heap).Reaches Admits s) {pointers : List Nat} (once : pointers.Nodup)
    (exactly : ∀ p, p ∈ pointers ↔ (s.buffers p).isSome = true) :
    s.heap.usedMem =
      (pointers.map fun p => s.heap.nextAt (p - sizeofStructMem) - (p - sizeofStructMem)).sum := by
  obtain ⟨tiles, sound⟩ := reaches_sound initialised address roomy reach
  have chain := sound.order.blocks.chain
  have sameMembers : ∀ p, p ∈ ((tiles.filter Tile.used).map Tile.start).map (· + sizeofStructMem) ↔
      p ∈ pointers := by
    intro p
    rw [exactly]
    constructor
    · intro member
      obtain ⟨_, isStart, rfl⟩ := List.mem_map.mp member
      obtain ⟨tile, isTile, rfl⟩ := List.mem_map.mp isStart
      exact sound.owned tile (List.mem_filter.mp isTile).1 (List.mem_filter.mp isTile).2
    · intro held
      obtain ⟨bytes, known⟩ := Option.isSome_iff_exists.mp held
      obtain ⟨tile, member, isUsed, rfl, _⟩ := sound.held p bytes known
      exact List.mem_map_of_mem (List.mem_map_of_mem (List.mem_filter.mpr ⟨member, isUsed⟩))
  have distinct : (((tiles.filter Tile.used).map Tile.start).map (· + sizeofStructMem)).Nodup :=
    List.Pairwise.map _ (fun _ _ differs same => differs (Nat.add_right_cancel same))
      chain.used_starts
  have rearranged := (List.perm_ext_iff_of_nodup distinct once).mpr sameMembers
  rw [sound.order.counted, usedBytes_eq_sum,
    ← (rearranged.map fun p => s.heap.nextAt (p - sizeofStructMem) - (p - sizeofStructMem)).sum_nat,
    List.map_map, List.map_map]
  congr 1
  apply List.map_congr_left
  intro tile member
  have stop : s.heap.nextAt tile.start = tile.stop :=
    (chain.header (List.mem_filter.mp member).1).2
  simp [stop]

theorem used_mem_exact_small : ∃ heap, smallHeap.rtMalloc 10 = some (heap, some 12) ∧
    heap.usedMem = heap.nextAt 0 := by
  obtain ⟨heap, called, fixed⟩ := smallHeap_malloc
  have exactly : ∀ p, p ∈ [12] ↔ (((calls smallHeap).init.hold heap 12
      (window heap.bytes 12 10)).buffers p).isSome = true := by
    intro p
    rw [buffers_hold]
    by_cases own : p = 12
    · simp [own]
    · simp [own, calls]
  have total := used_mem_exact smallHeap_init (by decide) (by decide)
    (fixed.mono fun _ _ => And.left) (by decide) exactly
  exact ⟨heap, called, total⟩

/-- `rt_calloc` clears what it gives out, but gives out less than `count` items of
`size` bytes exactly when their aligned size does not fit 32 bits. -/
theorem calloc_short_iff (initialised : rtSystemHeapInit memory beginAddr endAddr = some heap)
    (address : endAddr < 2 ^ 32) (roomy : minSizeAligned ≤ heap.memSizeAligned)
    (reach : (calls heap).Reaches Admits s) {count size p : Nat}
    (given : s.heap.rtCalloc count size = some (heap', some p)) :
    window heap'.bytes p (count * size % 2 ^ 32) = List.replicate (count * size % 2 ^ 32) 0 ∧
      (heap'.nextAt (p - sizeofStructMem) - p < count * size ↔ 2 ^ 32 ≤ count * size + 3) := by
  obtain ⟨tiles, sound⟩ := reaches_sound initialised address roomy reach
  have twelve : sizeofStructMem = 12 := rfl
  generalize isWrapped : count * size % 2 ^ 32 = wrapped at given ⊢
  rw [Heap.rtCalloc, isWrapped] at given
  rcases sound.order.malloc wrapped with ⟨refused, _⟩ |
    ⟨allocated, tiles', tile, stop, called, member, _, within, long, order, turns, _⟩
  · rw [refused] at given
    cases given
  rw [called] at given
  obtain ⟨isHeap, isPointer⟩ := Prod.mk.inj (Option.some.inj given)
  obtain rfl := Option.some.inj isPointer
  have target : ⟨tile.start, stop, true⟩ ∈ tiles' :=
    (turns.used _ rfl).mpr (Or.inr List.mem_cons_self)
  have bound := sound.order.blocks.chain.bounds member
  have fits := sound.order.blocks.fits
  have next : heap'.nextAt tile.start = stop := by
    have before : allocated.nextAt tile.start = stop := (order.blocks.chain.header target).2
    rw [← isHeap, ← before]
    apply Field.get_congr
    intro address _ high
    have inside : memNext.offset + memNext.size ≤ sizeofStructMem := by decide
    exact store_of_outside (Or.inl (by omega))
  constructor
  · have filled := window_store allocated.bytes (tile.start + sizeofStructMem)
      (List.replicate wrapped 0)
    rw [List.length_replicate] at filled
    rw [← isHeap]
    exact filled
  rw [Nat.add_sub_cancel, next]
  constructor
  · intro short
    by_contra small
    have whole : wrapped = count * size := by
      rw [← isWrapped]
      exact Nat.mod_eq_of_lt (by omega)
    have enough : count * size ≤ request (count * size) := le_request (by omega)
    rw [whole] at long
    omega
  · intro wraps
    omega

/-- 2^31 + 2 items of two bytes get twelve bytes. -/
theorem calloc_short_small : ∃ heap', smallHeap.rtCalloc 2147483650 2 = some (heap', some 12) ∧
    heap'.nextAt 0 - 12 < 2147483650 * 2 := by
  have called : (smallHeap.rtCalloc 2147483650 2).map Prod.snd = some (some 12) := by decide
  obtain ⟨⟨heap', p⟩, isResult, rfl⟩ := Option.map_eq_some_iff.mp called
  have short := (calloc_short_iff smallHeap_init (by decide) (by decide) .init isResult).2
  exact ⟨heap', isResult, short.mpr (by decide)⟩

end FromInit

end Holding

end RttIctl.Kernel
