import RttIctl.Kernel.MemBlocks

/-!
Owns what one call of `rt_malloc` or `rt_free` does to a heap in order: which block
is given or taken back, that every other used block keeps its bytes, and that the
heap is in order again.

It does not own `rt_realloc` or who holds which block.
-/

namespace RttIctl.Kernel.Heap

open Lib Lib.Chain

variable {heap heap' : Heap} {tiles tiles' : List Tile}

/-! ### A heap in order -/

/-- The memory is divided into blocks, no two free ones side by side; `lfree` is
the start of a block or the end of a heap that is not all free, and `used_mem`
counts the used blocks. -/
structure Invariant (heap : Heap) (tiles : List Tile) : Prop where
  blocks : Blocks heap tiles
  coalesced : Coalesced tiles
  lowest : Boundary tiles heap.heapEnd heap.lfree
  full : heap.lfree = heap.heapEnd → ∃ tile ∈ tiles, tile.used = true
  counted : heap.usedMem = usedBytes tiles
  roomy : minSizeAligned ≤ heap.memSizeAligned

section Calls

variable {before after : List Tile} {tile : Tile}

/-- A block stands in the heap once. -/
theorem Blocks.once (blocks : Blocks heap (before ++ tile :: after)) :
    tile ∉ before ∧ tile ∉ after := by
  have bound := blocks.chain.bounds (List.mem_append_right before List.mem_cons_self)
  obtain ⟨earlier, later⟩ := blocks.chain.apart
  constructor
  · intro front
    have := earlier tile front
    omega
  · intro back
    have := later tile back
    omega

theorem Blocks.setMagic (blocks : Blocks heap (before ++ tile :: after)) :
    Blocks (heap.setMagic tile.start heapMagic) (before ++ tile :: after) := by
  have touches := heap.touches_setMagic tile.start
  have member : tile ∈ before ++ tile :: after := by simp
  have written : ∀ offset ∈ [tile.start],
      Boundary (before ++ tile :: after) heap.heapEnd offset := by
    intro offset isTile
    rw [List.mem_singleton.mp isTile]
    exact boundary_start member
  have kept : ∀ place, Boundary (before ++ tile :: after) heap.heapEnd place →
      (heap.setMagic tile.start heapMagic).link place = heap.link place := by
    intro place here
    by_cases own : place = tile.start
    · rw [own, link_setMagic]
    · exact blocks.link_kept touches written here (mt List.mem_singleton.mp own)
  refine blocks.rewrite touches written ?_ ?_ fun other here => ⟨other, here, rfl⟩
  · exact blocks.chain.congr fun other here => kept _ (boundary_start here)
  · rw [kept _ (Or.inl rfl)]
    exact blocks.ending

/-- Marking a block changes no payload. -/
theorem Blocks.mark_kept (blocks : Blocks heap (before ++ tile :: after)) (value : Nat)
    {other : Tile} (member : other ∈ before ++ tile :: after) :
    Kept heap ((heap.setUsed tile.start value).setMagic tile.start heapMagic) other := by
  have touches := (heap.touches_setUsed tile.start value).trans (touches_setMagic _ _)
  apply touches.kept
  intro offset isTile
  rw [List.mem_singleton.mp isTile]
  exact blocks.chain.boundary_outside (boundary_start (by simp)) member

/-- A block is marked used or free. -/
theorem Blocks.mark_turns {value : Nat} (blocks : Blocks heap (before ++ tile :: after))
    (fits : value < 2 ^ 16) :
    Turns heap (before ++ tile :: after)
      ((heap.setUsed tile.start value).setMagic tile.start heapMagic)
      (before ++ { tile with used := value ≠ 0 } :: after) [tile]
      [{ tile with used := value ≠ 0 }] := by
  refine ⟨(blocks.mark fits).setMagic, rfl, ?_, ?_⟩
  · intro other _
    obtain ⟨notBefore, notAfter⟩ := blocks.once
    have frontDiffers : other ∈ before → other ≠ tile :=
      fun here => ne_of_mem_of_not_mem here notBefore
    have backDiffers : other ∈ after → other ≠ tile :=
      fun here => ne_of_mem_of_not_mem here notAfter
    simp only [List.mem_append, List.mem_cons, List.not_mem_nil, or_false]
    tauto
  · intro other member _ _
    exact blocks.mark_kept value member

/-- A block is cut in two. -/
theorem Blocks.cut_turns {size : Nat} (blocks : Blocks heap (before ++ tile :: after))
    (positive : 0 < size) (aligned : size % 4 = 0)
    (room : tile.start + sizeofStructMem + size + sizeofStructMem < tile.stop) :
    Turns heap (before ++ tile :: after) (heap.cutBehind tile.start size)
      (before ++ { tile with stop := tile.start + sizeofStructMem + size } ::
        ⟨tile.start + sizeofStructMem + size, tile.stop, false⟩ :: after)
      [tile] [{ tile with stop := tile.start + sizeofStructMem + size }] := by
  obtain ⟨cut, touches⟩ := blocks.cut positive aligned room
  have member : tile ∈ before ++ tile :: after := by simp
  have bound := blocks.chain.bounds member
  refine ⟨cut, touches.size, ?_, ?_⟩
  · intro other isUsed
    obtain ⟨notBefore, notAfter⟩ := blocks.once
    have frontDiffers : other ∈ before → other ≠ tile :=
      fun here => ne_of_mem_of_not_mem here notBefore
    have backDiffers : other ∈ after → other ≠ tile :=
      fun here => ne_of_mem_of_not_mem here notAfter
    have notFresh : other ≠ ⟨tile.start + sizeofStructMem + size, tile.stop, false⟩ := by
      rintro rfl
      exact Bool.noConfusion isUsed
    simp only [List.mem_append, List.mem_cons, List.not_mem_nil, or_false, notFresh, false_or]
    tauto
  · intro other otherMember _ differs
    have := blocks.chain.boundary_outside (boundary_start member) otherMember
    have := blocks.chain.boundary_outside (boundary_start otherMember) member
    have := blocks.chain.boundary_outside (blocks.chain.boundary_stop member) otherMember
    have := blocks.chain.bounds otherMember
    have elsewhere : other.start ≠ tile.start := by
      rcases List.mem_append.mp otherMember with front | back
      · exact (blocks.chain.start_ne (List.mem_append_left _ front)).1
      · rcases List.mem_cons.mp back with rfl | back
        · exact absurd List.mem_cons_self differs
        · exact (blocks.chain.start_ne (List.mem_append_right _ back)).1
    apply touches.kept
    simp only [List.forall_mem_cons, List.not_mem_nil, false_implies, implies_true, and_true]
    omega

/-- `rt_free` of a used block gives it back and nothing else. -/
theorem Invariant.free (order : Invariant heap (before ++ tile :: after))
    (isUsed : tile.used = true) :
    ∃ heap' tiles', heap.rtFree (some (tile.start + sizeofStructMem)) = some heap' ∧
      Invariant heap' tiles' ∧ Turns heap (before ++ tile :: after) heap' tiles' [tile] [] ∧
      (Below heap (before ++ tile :: after) → Below heap' tiles') := by
  obtain ⟨blocks, coalesced, lowest, _, counted, roomy⟩ := order
  have twelve : sizeofStructMem = 12 := rfl
  have member : tile ∈ before ++ tile :: after := by simp
  have bound := blocks.chain.bounds member
  have aligned := blocks.aligned tile member
  have fits := blocks.fits
  have usedBound := blocks.chain.usedBytes_le
  obtain ⟨frontCoalesced, backCoalesced, _⟩ := List.isChain_append.mp coalesced
  have width : sizeSub tile.stop tile.start = tile.stop - tile.start :=
    sizeSub_of_le (by omega) (by omega)
  have less : usedBytes (before ++ tile :: after) =
      usedBytes (before ++ { tile with used := false } :: after) + (tile.stop - tile.start) := by
    simp [usedBytes_append, usedBytes, isUsed]
    omega
  have release := (blocks.mark_turns (show 0 < 2 ^ 16 by decide)).drop_given rfl
  have stop : ((heap.setUsed tile.start 0).setMagic tile.start heapMagic).nextAt tile.start =
      tile.stop :=
    (release.blocks.chain.header (by simp : { tile with used := false } ∈ before ++ _ :: after)).2
  generalize isMarked : (heap.setUsed tile.start 0).setMagic tile.start heapMagic = marked
    at release stop
  generalize isFreed : ({ marked with
    lfree := if tile.start < heap.lfree then tile.start else heap.lfree
    usedMem := usedBytes (before ++ { tile with used := false } :: after) } : Heap) = freed
  have lfree : freed.lfree = if tile.start < heap.lfree then tile.start else heap.lfree := by
    rw [← isFreed]
  have usedMem : freed.usedMem = usedBytes (before ++ { tile with used := false } :: after) := by
    rw [← isFreed]
  have turns : Turns heap (before ++ tile :: after) freed
      (before ++ { tile with used := false } :: after) [tile] [] := by
    rw [← isFreed]
    exact release.of_same rfl rfl
  have reached : heap.rtFree (some (tile.start + sizeofStructMem)) =
      freed.plugHoles tile.start := by
    have inHeap : (tile.start + sizeofStructMem) % 4 = 0 ∧
        tile.start + sizeofStructMem < heap.heapEnd := by
      omega
    have block : heap.usedAt tile.start ≠ 0 ∧ heap.magicAt tile.start = heapMagic := by
      refine ⟨fun zero => ?_, blocks.magic tile member⟩
      rw [usedAt_eq_zero_iff blocks member, isUsed] at zero
      exact Bool.noConfusion zero
    have remaining : sizeSub heap.usedMem (tile.stop - tile.start) =
        usedBytes (before ++ { tile with used := false } :: after) := by
      rw [counted, sizeSub_of_le (by omega) (by omega), less, Nat.add_sub_cancel]
    unfold Heap.rtFree
    simp only [if_pos inHeap, Nat.add_sub_cancel, if_pos block, isMarked, stop, width]
    have sameLfree : marked.lfree = heap.lfree := by
      rw [← isMarked]
      rfl
    have sameUsedMem : marked.usedMem = heap.usedMem := by
      rw [← isMarked]
      rfl
    rw [sameLfree, sameUsedMem, remaining, isFreed]
  obtain ⟨heap', tiles', plugged, whole, joins⟩ :=
    turns.blocks.plugHoles rfl frontCoalesced (List.isChain_cons.mp backCoalesced).2
  have lowestFreed : Boundary (before ++ { tile with used := false } :: after) freed.heapEnd
      freed.lfree := by
    rw [lfree, turns.heapEnd]
    split
    · exact Or.inr ⟨{ tile with used := false }, by simp, rfl⟩
    · apply boundary_mono lowest
      simp only [List.forall_mem_append, List.forall_mem_cons]
      exact ⟨fun other front => ⟨other, by simp [front], rfl⟩,
        ⟨{ tile with used := false }, by simp, rfl⟩, fun other back => ⟨other, by simp [back], rfl⟩⟩
  have sameEnd : heap'.heapEnd = heap.heapEnd := joins.turns.heapEnd.trans turns.heapEnd
  have low : heap'.lfree ≤ tile.start := by
    have := joins.lower
    rw [lfree] at this
    split at this <;> omega
  refine ⟨heap', tiles', reached.trans plugged, ⟨joins.turns.blocks, whole, ?_, ?_, ?_, ?_⟩,
    turns.trans joins.turns, ?_⟩
  · rw [joins.turns.heapEnd]
    exact joins.lowest lowestFreed
  · intro isEnd
    rw [sameEnd] at isEnd
    omega
  · rw [joins.counted.1, joins.counted.2, usedMem]
  · rw [joins.turns.size, turns.size]
    exact roomy
  · intro below
    apply joins.below
    intro other otherMember isFree
    rw [lfree]
    simp only [List.mem_append, List.mem_cons] at otherMember
    rcases otherMember with front | rfl | back
    · have := below other (by simp [front]) isFree
      split <;> omega
    · dsimp only
      split <;> omega
    · have := below other (by simp [back]) isFree
      split <;> omega

/-! ### Finding and cutting a block -/

/-- A free block that `rt_malloc` takes for `size` bytes: one that ends with the
heap has to be larger than asked. -/
def Fits (heap : Heap) (size : Nat) (tile : Tile) : Prop :=
  tile.used = false ∧ tile.start + sizeofStructMem + size ≤ tile.stop ∧
    tile.start + size < heap.memSizeAligned

/-- The search stops at the first block that fits. -/
theorem Blocks.search {size fuel : Nat} (blocks : Blocks heap (before ++ after))
    (room : size ≤ heap.memSizeAligned) (enough : after.length < fuel) :
    (∃ front tile rest, after = front ++ tile :: rest ∧ Fits heap size tile ∧
        (∀ other ∈ front, ¬ Fits heap size other) ∧
        heap.search size fuel (firstStart heap.heapEnd after) = some (some tile.start)) ∨
      (heap.search size fuel (firstStart heap.heapEnd after) = some none ∧
        ∀ tile ∈ after, ¬ Fits heap size tile) := by
  have fits := blocks.fits
  have total : heap.heapEnd = heap.memSizeAligned + sizeofStructMem := rfl
  have difference : sizeSub heap.memSizeAligned size = heap.memSizeAligned - size :=
    sizeSub_of_le room (by omega)
  induction after generalizing before fuel with
  | nil =>
      obtain ⟨fuel, rfl⟩ := Nat.exists_eq_succ_of_ne_zero (Nat.ne_of_gt enough)
      refine Or.inr ⟨?_, by simp⟩
      rw [Heap.search, firstStart, if_neg (by omega)]
  | cons tile rest inductionHypothesis =>
      obtain ⟨fuel, rfl⟩ := Nat.exists_eq_succ_of_ne_zero (Nat.ne_of_gt (Nat.zero_lt_of_lt enough))
      have member : tile ∈ before ++ tile :: rest := by simp
      have bound := blocks.chain.bounds member
      have usedIff := usedAt_eq_zero_iff blocks member
      have next : heap.nextAt tile.start = tile.stop := (blocks.chain.header member).2
      obtain ⟨_, _, _, back⟩ := blocks.chain.around
      have payload : sizeSub tile.stop (tile.start + sizeofStructMem) =
          tile.stop - (tile.start + sizeofStructMem) := sizeSub_of_le (by omega) (by omega)
      rw [Heap.search, firstStart, difference, next, payload]
      by_cases early : tile.start < heap.memSizeAligned - size
      · rw [if_pos early]
        by_cases fit : heap.usedAt tile.start = 0 ∧
            size ≤ tile.stop - (tile.start + sizeofStructMem)
        · rw [if_pos fit]
          exact Or.inl ⟨[], tile, rest, rfl, ⟨usedIff.mp fit.1, by omega, by omega⟩, by simp, rfl⟩
        · rw [if_neg fit]
          have notFits : ¬ Fits heap size tile := by
            rintro ⟨free, long, _⟩
            exact fit ⟨usedIff.mpr free, by omega⟩
          rw [List.append_cons] at blocks
          rw [List.length_cons] at enough
          rw [← back.firstStart_eq]
          rcases inductionHypothesis blocks (Nat.lt_of_succ_lt_succ enough) with
            ⟨front, found, others, rfl, fitsFound, first, result⟩ | ⟨result, nothing⟩
          · exact Or.inl ⟨tile :: front, found, others, rfl, fitsFound,
              List.forall_mem_cons.mpr ⟨notFits, first⟩, result⟩
          · exact Or.inr ⟨result, List.forall_mem_cons.mpr ⟨notFits, nothing⟩⟩
      · rw [if_neg early]
        refine Or.inr ⟨rfl, List.forall_mem_cons.mpr ⟨?_, ?_⟩⟩
        · rintro ⟨_, _, small⟩
          omega
        · rintro other otherMember ⟨_, _, small⟩
          have := (back.bounds otherMember).1
          omega

/-- `lfree` stops at the first free block, or at the end of the heap. -/
theorem Blocks.skipUsed {fuel : Nat} (blocks : Blocks heap (before ++ after))
    (enough : after.length < fuel) :
    ∃ lfree, heap.skipUsed fuel (firstStart heap.heapEnd after) = some lfree ∧
      Boundary (before ++ after) heap.heapEnd lfree ∧
      (lfree = heap.heapEnd ∨ heap.usedAt lfree = 0) ∧
      ∀ tile ∈ after, tile.used = false → lfree ≤ tile.start := by
  induction after generalizing before fuel with
  | nil =>
      obtain ⟨fuel, rfl⟩ := Nat.exists_eq_succ_of_ne_zero (Nat.ne_of_gt enough)
      refine ⟨heap.heapEnd, ?_, Or.inl rfl, Or.inl rfl, by simp⟩
      rw [Heap.skipUsed, firstStart, if_neg (by simp)]
  | cons tile rest inductionHypothesis =>
      obtain ⟨fuel, rfl⟩ := Nat.exists_eq_succ_of_ne_zero (Nat.ne_of_gt (Nat.zero_lt_of_lt enough))
      have member : tile ∈ before ++ tile :: rest := by simp
      have bound := blocks.chain.bounds member
      have usedIff := usedAt_eq_zero_iff blocks member
      have next : heap.nextAt tile.start = tile.stop := (blocks.chain.header member).2
      obtain ⟨_, _, _, back⟩ := blocks.chain.around
      rw [Heap.skipUsed, firstStart, next]
      cases isUsed : tile.used with
      | false =>
          have free := usedIff.mpr isUsed
          rw [if_neg (by simp [free])]
          refine ⟨tile.start, rfl, boundary_start member, Or.inr free, List.forall_mem_cons.mpr
            ⟨fun _ => Nat.le_refl _, fun other otherMember _ => ?_⟩⟩
          have := (back.bounds otherMember).1
          omega
      | true =>
          have notFree : heap.usedAt tile.start ≠ 0 := by
            rw [Ne, usedIff, isUsed]
            exact Bool.true_eq_false.mp
          rw [if_pos ⟨notFree, by omega⟩, ← back.firstStart_eq]
          rw [List.length_cons] at enough
          rw [List.append_cons] at blocks ⊢
          obtain ⟨lfree, result, here, stopped, low⟩ :=
            inductionHypothesis blocks (Nat.lt_of_succ_lt_succ enough)
          exact ⟨lfree, result, here, stopped, List.forall_mem_cons.mpr
            ⟨fun free => absurd (isUsed.symm.trans free) Bool.true_eq_false.mp, low⟩⟩

theorem cutBehind_counts (heap : Heap) (ptr size : Nat) :
    (heap.cutBehind ptr size).usedMem = heap.usedMem ∧
      (heap.cutBehind ptr size).lfree = heap.lfree := by
  unfold Heap.cutBehind
  dsimp only
  split <;> exact ⟨rfl, rfl⟩

/-- The counters are written between the two header fields. -/
theorem setMagic_countUsed (heap : Heap) (ptr bytes : Nat) :
    (((heap.setUsed ptr 1).countUsed bytes).setMagic ptr heapMagic) =
      ((heap.setUsed ptr 1).setMagic ptr heapMagic).countUsed bytes := rfl

theorem mark_countUsed (heap : Heap) (ptr bytes : Nat) :
    (((heap.setUsed ptr 1).setMagic ptr heapMagic).countUsed bytes).usedMem =
        heap.usedMem + bytes ∧
      (((heap.setUsed ptr 1).setMagic ptr heapMagic).countUsed bytes).lfree = heap.lfree :=
  ⟨rfl, rfl⟩

theorem Turns.countUsed {gone given : List Tile}
    (turns : Turns heap tiles heap' tiles' gone given) (bytes : Nat) :
    Turns heap tiles (heap'.countUsed bytes) tiles' gone given :=
  turns.of_same rfl rfl

/-- The block found is cut to size when the rest is long enough for a block, and
given out. -/
theorem Invariant.carve {size : Nat} (order : Invariant heap (before ++ tile :: after))
    (fits : Fits heap size tile) (positive : 0 < size) (aligned : size % 4 = 0) :
    ∃ stop rest, Turns heap (before ++ tile :: after) (heap.carve tile.start size)
        (before ++ ⟨tile.start, stop, true⟩ :: rest) [] [⟨tile.start, stop, true⟩] ∧
      tile.start + sizeofStructMem + size ≤ stop ∧ stop ≤ tile.stop ∧
      Coalesced (before ++ ⟨tile.start, stop, true⟩ :: rest) ∧
      (heap.carve tile.start size).usedMem =
        usedBytes (before ++ ⟨tile.start, stop, true⟩ :: rest) ∧
      (heap.carve tile.start size).lfree = heap.lfree ∧
      (∀ other ∈ after, ∃ same ∈ rest, same.start = other.start) ∧
      ∀ other ∈ rest, other ∈ after ∨ tile.start ≤ other.start := by
  obtain ⟨blocks, coalesced, _, _, counted, _⟩ := order
  obtain ⟨free, long, _⟩ := fits
  have twelve : sizeofStructMem = 12 := rfl
  have smallest : minSizeAligned = 12 := rfl
  have member : tile ∈ before ++ tile :: after := by simp
  have bound := blocks.chain.bounds member
  have fits := blocks.fits
  have next : heap.nextAt tile.start = tile.stop := (blocks.chain.header member).2
  obtain ⟨front, back, between⟩ := List.isChain_append.mp coalesced
  obtain ⟨follows, rest⟩ := List.isChain_cons.mp back
  have payload : sizeSub tile.stop (tile.start + sizeofStructMem) =
      tile.stop - (tile.start + sizeofStructMem) := sizeSub_of_le (by omega) (by omega)
  have width : sizeSub tile.stop tile.start = tile.stop - tile.start :=
    sizeSub_of_le (by omega) (by omega)
  unfold Heap.carve
  rw [next, payload, width]
  by_cases large : size + sizeofStructMem + minSizeAligned ≤
      tile.stop - (tile.start + sizeofStructMem)
  · rw [if_pos large]
    dsimp only
    rw [setMagic_countUsed]
    have cut := ((blocks.cut_turns positive aligned (by omega)).drop_gone free).drop_given free
    have given := (cut.blocks.mark_turns (show 1 < 2 ^ 16 by decide)).drop_gone free
    have turned := (cut.after_none given).countUsed (size + sizeofStructMem)
    obtain ⟨cutUsedMem, cutLfree⟩ := heap.cutBehind_counts tile.start size
    obtain ⟨usedMem, lfree⟩ :=
      (heap.cutBehind tile.start size).mark_countUsed tile.start (size + sizeofStructMem)
    refine ⟨tile.start + sizeofStructMem + size,
      ⟨tile.start + sizeofStructMem + size, tile.stop, false⟩ :: after,
      turned, Nat.le_refl _, by omega, ?_, ?_, lfree.trans cutLfree, ?_, ?_⟩
    · refine List.isChain_append.mpr ⟨front, List.isChain_cons.mpr ⟨fun _ _ => Or.inl rfl,
        List.isChain_cons.mpr ⟨fun other isNext => Or.inr ?_, rest⟩⟩, fun _ _ _ isGiven => ?_⟩
      · have := follows other isNext
        rw [free] at this
        exact this.resolve_left Bool.false_ne_true
      · rw [← Option.mem_some_iff.mp isGiven]
        exact Or.inr rfl
    · rw [usedMem, cutUsedMem, counted]
      simp [usedBytes_append, usedBytes, free]
      omega
    · exact fun other here => ⟨other, by simp [here], rfl⟩
    · intro other here
      rcases List.mem_cons.mp here with rfl | here
      · exact Or.inr (by dsimp only; omega)
      · exact Or.inl here
  · rw [if_neg large]
    dsimp only
    rw [setMagic_countUsed]
    have given := (blocks.mark_turns (show 1 < 2 ^ 16 by decide)).drop_gone free
    obtain ⟨usedMem, lfree⟩ := heap.mark_countUsed tile.start (tile.stop - tile.start)
    refine ⟨tile.stop, after, given.countUsed _, long, Nat.le_refl _, ?_, ?_, lfree,
      fun other here => ⟨other, here, rfl⟩, fun other here => Or.inl here⟩
    · refine List.isChain_append.mpr ⟨front, List.isChain_cons.mpr ⟨fun _ _ => Or.inl rfl,
        rest⟩, fun _ _ _ isGiven => ?_⟩
      rw [← Option.mem_some_iff.mp isGiven]
      exact Or.inr rfl
    · rw [usedMem, counted]
      simp [usedBytes_append, usedBytes, free]
      omega

/-- After a block was given out `lfree` is in order again. -/
theorem Invariant.advance (order : Invariant heap (before ++ tile :: after))
    (isUsed : tile.used = true) :
    ∃ heap', heap.advance tile.start = some heap' ∧ heap'.bytes = heap.bytes ∧
      heap'.memSizeAligned = heap.memSizeAligned ∧ Invariant heap' (before ++ tile :: after) ∧
      (Below heap (before ++ tile :: after) → Below heap' (before ++ tile :: after)) := by
  have member : tile ∈ before ++ tile :: after := by simp
  have bound := order.blocks.chain.bounds member
  unfold Heap.advance
  by_cases first : tile.start = heap.lfree
  · have short := order.blocks.chain.length_le
    rw [List.length_append] at short
    obtain ⟨lfree, result, here, stopped, low⟩ :=
      order.blocks.skipUsed (show (tile :: after).length < heap.heapEnd + 1 by omega)
    rw [firstStart, first] at result
    rw [if_pos first, result]
    refine ⟨{ heap with lfree := lfree }, if_pos stopped, rfl, rfl,
      ⟨order.blocks.of_same rfl rfl, order.coalesced, here, fun _ => ⟨tile, member, isUsed⟩,
        order.counted, order.roomy⟩, fun below other otherMember free => ?_⟩
    rcases List.mem_append.mp otherMember with front | back
    · have := below other otherMember free
      have := order.blocks.chain.apart.1 other front
      have := (order.blocks.chain.bounds otherMember).2.1
      omega
    · exact low other back free
  · rw [if_neg first]
    exact ⟨heap, rfl, rfl, rfl, order, id⟩

/-- A block that fits is given out. -/
theorem Invariant.give {size : Nat} (order : Invariant heap (before ++ tile :: after))
    (fits : Fits heap size tile) (positive : 0 < size) (aligned : size % 4 = 0) :
    ∃ heap' tiles' stop, (heap.carve tile.start size).advance tile.start = some heap' ∧
      stop ≤ tile.stop ∧ tile.start + sizeofStructMem + size ≤ stop ∧ Invariant heap' tiles' ∧
      Turns heap (before ++ tile :: after) heap' tiles' [] [⟨tile.start, stop, true⟩] ∧
      (Below heap (before ++ tile :: after) → Below heap' tiles') := by
  have member : tile ∈ before ++ tile :: after := by simp
  obtain ⟨stop, rest, turns, long, within, coalesced, usedMem, lfree, stays, comes⟩ :=
    order.carve fits positive aligned
  have carved : Invariant (heap.carve tile.start size)
      (before ++ ⟨tile.start, stop, true⟩ :: rest) := by
    refine ⟨turns.blocks, coalesced, ?_, fun _ => ⟨⟨tile.start, stop, true⟩, by simp, rfl⟩,
      usedMem, ?_⟩
    · rw [turns.heapEnd, lfree]
      apply boundary_mono order.lowest
      simp only [List.forall_mem_append, List.forall_mem_cons]
      refine ⟨fun other here => ⟨other, by simp [here], rfl⟩,
        ⟨⟨tile.start, stop, true⟩, by simp, rfl⟩, fun other here => ?_⟩
      obtain ⟨same, sameMember, sameStart⟩ := stays other here
      exact ⟨same, by simp [sameMember], sameStart⟩
    · rw [turns.size]
      exact order.roomy
  obtain ⟨heap', advanced, bytes, memSize, ordered, lower⟩ := carved.advance rfl
  refine ⟨heap', _, stop, advanced, within, long, ordered, turns.of_same bytes memSize,
    fun below => lower fun other otherMember free => ?_⟩
  have own := below tile member fits.1
  rw [lfree]
  simp only [List.mem_append, List.mem_cons] at otherMember
  rcases otherMember with front | rfl | back
  · exact below other (by simp [front]) free
  · exact Bool.noConfusion free
  · rcases comes other back with old | higher
    · exact below other (by simp [old]) free
    · exact Nat.le_trans own higher

/-- The size that is looked for: aligned to 4 bytes, and at least the smallest. -/
def request (size : Nat) : Nat := max (rtAlign size) minSizeAligned

theorem rtAlign_aligned (size : Nat) : rtAlign size % 4 = 0 :=
  Nat.mul_mod_left _ _

/-- `rt_malloc` gives a fresh block that is long enough, or nothing when the
search from `lfree` on finds no block that fits. -/
theorem Invariant.malloc (order : Invariant heap tiles) (size : Nat) :
    (heap.rtMalloc size = some (heap, none) ∧
      (Below heap tiles → size = 0 ∨ ∀ tile ∈ tiles, ¬ Fits heap (request size) tile)) ∨
    ∃ heap' tiles' tile stop,
      heap.rtMalloc size = some (heap', some (tile.start + sizeofStructMem)) ∧
      tile ∈ tiles ∧ Fits heap (request size) tile ∧ stop ≤ tile.stop ∧
      tile.start + sizeofStructMem + request size ≤ stop ∧ Invariant heap' tiles' ∧
      Turns heap tiles heap' tiles' [] [⟨tile.start, stop, true⟩] ∧
      (Below heap tiles → Below heap' tiles' ∧
        ∀ other ∈ tiles, Fits heap (request size) other → tile.start ≤ other.start) := by
  have twelve : sizeofStructMem = 12 := rfl
  have smallest : minSizeAligned = 12 := rfl
  have requestAligned : request size % 4 = 0 := by
    have := rtAlign_aligned size
    unfold request
    omega
  unfold Heap.rtMalloc
  by_cases zero : size = 0
  · exact Or.inl ⟨if_pos zero, fun _ => Or.inl zero⟩
  rw [if_neg zero]
  dsimp only
  by_cases tooLarge : heap.memSizeAligned < rtAlign size
  · rw [if_pos tooLarge]
    refine Or.inl ⟨rfl, fun _ => Or.inr ?_⟩
    rintro tile _ ⟨_, _, small⟩
    unfold request at small
    omega
  rw [if_neg tooLarge]
  have roomy := order.roomy
  obtain ⟨before, after, rfl, isFirst⟩ : ∃ before after, tiles = before ++ after ∧
      firstStart heap.heapEnd after = heap.lfree := by
    rcases order.lowest with isEnd | ⟨tile, member, isStart⟩
    · exact ⟨tiles, [], (List.append_nil _).symm, isEnd.symm⟩
    · obtain ⟨before, after, rfl⟩ := List.append_of_mem member
      exact ⟨before, tile :: after, rfl, isStart⟩
  have short := order.blocks.chain.length_le
  rw [List.length_append] at short
  have requestRoom : request size ≤ heap.memSizeAligned := by
    unfold request
    omega
  have skipped : Below heap (before ++ after) → ∀ other ∈ before,
      ¬ Fits heap (request size) other := by
    intro below other here fits
    have member : other ∈ before ++ after := List.mem_append_left _ here
    have := below other member fits.1
    have bound := order.blocks.chain.bounds member
    cases after with
    | nil =>
        have : heap.heapEnd = heap.lfree := isFirst
        omega
    | cons head rest =>
        have := order.blocks.chain.apart.1 other here
        have : head.start = heap.lfree := isFirst
        omega
  rcases order.blocks.search requestRoom (show after.length < heap.heapEnd + 1 by omega) with
    ⟨front, tile, rest, rfl, fits, first, found⟩ | ⟨nothing, none⟩
  · rw [isFirst] at found
    rw [← List.append_assoc] at order ⊢
    have member : tile ∈ (before ++ front) ++ tile :: rest := by simp
    have bound := order.blocks.chain.bounds member
    have aligned := order.blocks.aligned tile member
    obtain ⟨heap', tiles', stop, advanced, within, long, ordered, turns, below⟩ :=
      order.give fits (by unfold request; omega) requestAligned
    have sameEnd := turns.heapEnd
    have lowest : Below heap ((before ++ front) ++ tile :: rest) →
        ∀ other ∈ (before ++ front) ++ tile :: rest, Fits heap (request size) other →
          tile.start ≤ other.start := by
      intro low other here fitsOther
      rw [← List.append_assoc] at skipped
      simp only [List.mem_append, List.mem_cons] at here
      rcases here with (front | next) | rfl | back
      · exact absurd fitsOther (skipped low other front)
      · exact absurd fitsOther (first other next)
      · exact Nat.le_refl _
      · have := order.blocks.chain.apart.2 other back
        omega
    refine Or.inr ⟨heap', tiles', tile, stop, ?_, member, fits, within, long, ordered, turns,
      fun low => ⟨below low, lowest low⟩⟩
    rw [show max (rtAlign size) minSizeAligned = request size from rfl, found]
    dsimp only
    rw [advanced]
    exact if_pos ⟨by omega, by omega, aligned⟩
  · rw [isFirst] at nothing
    rw [show max (rtAlign size) minSizeAligned = request size from rfl, nothing]
    refine Or.inl ⟨rfl, fun below => Or.inr ?_⟩
    intro tile member fits
    rcases List.mem_append.mp member with front | back
    · exact skipped below tile front fits
    · exact none tile back fits

end Calls

end RttIctl.Kernel.Heap
