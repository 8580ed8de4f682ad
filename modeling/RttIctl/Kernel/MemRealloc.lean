import RttIctl.Kernel.MemCalls

/-!
Owns what one call of `rt_realloc` does to a heap in order: the block stays, is cut
or moves with its bytes, and every other used block keeps its own. Writes into a
block are here too.

It does not own who holds which block.
-/

namespace RttIctl.Kernel.Heap

open Lib Lib.Chain

variable {heap heap' : Heap} {tiles before after : List Tile} {tile : Tile}

/-! ### Writing into a block -/

/-- Bytes written behind the header of a block change no header and no other
block. -/
theorem Blocks.write {address : Nat} {bytes : List UInt8} (blocks : Blocks heap tiles)
    (member : tile ∈ tiles) (low : tile.start + sizeofStructMem ≤ address)
    (high : address + bytes.length ≤ tile.stop) :
    Blocks { heap with bytes := PagedMemory.store heap.bytes address bytes } tiles ∧
      ∀ other ∈ tiles, other ≠ tile →
        Kept heap { heap with bytes := PagedMemory.store heap.bytes address bytes } other := by
  have same : ∀ field : Field, field.offset + field.size ≤ sizeofStructMem →
      ∀ place, Boundary tiles heap.heapEnd place →
        field.get (PagedMemory.store heap.bytes address bytes) place =
          field.get heap.bytes place := by
    intro field inside place here
    have := blocks.chain.boundary_outside here member
    have := blocks.chain.bounds member
    apply Field.get_congr
    intro cell cellLow cellHigh
    apply PagedMemory.store_of_outside
    omega
  have link : ∀ place, Boundary tiles heap.heapEnd place →
      Heap.link { heap with bytes := PagedMemory.store heap.bytes address bytes } place =
        heap.link place := by
    intro place here
    unfold Heap.link Heap.usedAt Heap.nextAt Heap.prevAt
    rw [same memUsed (by decide) place here, same memNext (by decide) place here,
      same memPrev (by decide) place here]
  refine ⟨⟨blocks.chain.congr fun other here => link _ (boundary_start here), ?_, ?_,
    blocks.aligned, blocks.alignedEnd, blocks.fits⟩, ?_⟩
  · exact (congrArg Link.used (link heap.heapEnd (Or.inl rfl))).trans blocks.ending
  · intro other here
    exact (same memMagic (by decide) _ (boundary_start here)).trans (blocks.magic other here)
  · intro other here differs cell cellLow cellHigh
    apply PagedMemory.store_of_outside
    obtain ⟨before, after, rfl⟩ := List.append_of_mem member
    obtain ⟨earlier, later⟩ := blocks.chain.apart
    rcases List.mem_append.mp here with front | back
    · have := earlier other front
      omega
    · have := later other ((List.mem_cons.mp back).resolve_left differs)
      omega

theorem Invariant.write {address : Nat} {bytes : List UInt8} (order : Invariant heap tiles)
    (member : tile ∈ tiles) (low : tile.start + sizeofStructMem ≤ address)
    (high : address + bytes.length ≤ tile.stop) :
    Invariant { heap with bytes := PagedMemory.store heap.bytes address bytes } tiles :=
  ⟨(order.blocks.write member low high).1, order.coalesced, order.lowest, order.full,
    order.counted, order.roomy⟩

/-! ### `rt_realloc` -/

theorem rtAlign_rtAlign (size : Nat) : rtAlign (rtAlign size) = rtAlign size := by
  unfold rtAlign
  omega

theorem cutBehind_usedMem (heap : Heap) (ptr size usedMem : Nat) :
    ({ heap with usedMem := usedMem } : Heap).cutBehind ptr size =
      { heap.cutBehind ptr size with usedMem := usedMem } := by
  unfold Heap.cutBehind
  dsimp only
  split <;> split <;> first | rfl | contradiction

/-- A used block is cut and the rest given back. -/
theorem Invariant.shrink {size : Nat} (order : Invariant heap (before ++ tile :: after))
    (isUsed : tile.used = true) (positive : 0 < size) (aligned : size % 4 = 0)
    (room : tile.start + sizeofStructMem + size + sizeofStructMem < tile.stop) :
    ∃ heap' tiles', (({ heap with
          usedMem := heap.usedMem - (tile.stop - (tile.start + sizeofStructMem + size)) } :
            Heap).cutBehind tile.start size).plugHoles (tile.start + sizeofStructMem + size) =
          some heap' ∧
      Invariant heap' tiles' ∧
      Turns heap (before ++ tile :: after) heap' tiles' [tile]
        [{ tile with stop := tile.start + sizeofStructMem + size }] ∧
      Kept heap heap' { tile with stop := tile.start + sizeofStructMem + size } := by
  obtain ⟨blocks, coalesced, lowest, _, counted, roomy⟩ := order
  have twelve : sizeofStructMem = 12 := rfl
  have member : tile ∈ before ++ tile :: after := by simp
  have bound := blocks.chain.bounds member
  obtain ⟨front, back, between⟩ := List.isChain_append.mp coalesced
  obtain ⟨_, rest⟩ := List.isChain_cons.mp back
  have cut := blocks.cut_turns positive aligned room
  have touches := (blocks.cut positive aligned room).2
  obtain ⟨_, cutLfree⟩ := heap.cutBehind_counts tile.start size
  rw [cutBehind_usedMem]
  generalize isCut : tile.start + sizeofStructMem + size = ptr2 at cut touches room ⊢
  have cutBack : Turns heap (before ++ tile :: after)
      { heap.cutBehind tile.start size with usedMem := heap.usedMem - (tile.stop - ptr2) }
      (before ++ { tile with stop := ptr2 } :: ⟨ptr2, tile.stop, false⟩ :: after) [tile]
      [{ tile with stop := ptr2 }] := cut.of_same rfl rfl
  rw [List.append_cons before { tile with stop := ptr2 }] at cutBack
  have frontCoalesced : Coalesced (before ++ [{ tile with stop := ptr2 }]) :=
    List.isChain_append.mpr ⟨front, List.isChain_singleton _, fun _ _ given isGiven =>
      Or.inr (by rw [← Option.mem_some_iff.mp isGiven]; exact isUsed)⟩
  obtain ⟨heap', tiles', plugged, whole, joins⟩ := cutBack.blocks.plugHoles rfl frontCoalesced rest
  have sameEnd : heap'.heapEnd = heap.heapEnd := joins.turns.heapEnd.trans cutBack.heapEnd
  have cutMember : { tile with stop := ptr2 } ∈ before ++ [{ tile with stop := ptr2 }] ++
      ⟨ptr2, tile.stop, false⟩ :: after := by simp
  have given : { tile with stop := ptr2 } ∈ tiles' :=
    (joins.turns.used { tile with stop := ptr2 } isUsed).mpr
      (Or.inl ⟨cutMember, List.not_mem_nil⟩)
  refine ⟨heap', tiles', plugged, ⟨joins.turns.blocks, whole, ?_,
    fun _ => ⟨_, given, isUsed⟩, ?_, ?_⟩, cutBack.trans joins.turns, ?_⟩
  · rw [joins.turns.heapEnd]
    apply joins.lowest
    rw [cutBack.heapEnd]
    apply boundary_mono (cutLfree ▸ lowest)
    simp only [List.forall_mem_append, List.forall_mem_cons]
    exact ⟨fun other here => ⟨other, by simp [here], rfl⟩,
      ⟨{ tile with stop := ptr2 }, by simp, rfl⟩, fun other here => ⟨other, by simp [here], rfl⟩⟩
  · rw [joins.counted.1, joins.counted.2]
    show heap.usedMem - (tile.stop - ptr2) = _
    rw [counted]
    simp [usedBytes_append, usedBytes, isUsed]
    omega
  · rw [joins.turns.size, cutBack.size]
    exact roomy
  · have first : Kept heap (heap.cutBehind tile.start size) { tile with stop := ptr2 } := by
      apply touches.kept
      simp only [List.forall_mem_cons, List.not_mem_nil, false_implies, implies_true, and_true]
      omega
    exact fun address low high =>
      (joins.turns.kept _ cutMember isUsed List.not_mem_nil address low high).trans
        (first address low high)

theorem Kept.window {start count : Nat} (kept : Kept heap heap' tile)
    (low : tile.start + sizeofStructMem ≤ start) (high : start + count ≤ tile.stop) :
    PagedMemory.window heap'.bytes start count = PagedMemory.window heap.bytes start count :=
  PagedMemory.window_congr fun address above below => kept address (by omega) (by omega)

/-- A block that is given starts where no used block did. -/
theorem Blocks.fresh (blocks : Blocks heap tiles) (given : Tile) (member : tile ∈ tiles)
    (free : tile.used = false) (same : given.start = tile.start) :
    ∀ other ∈ tiles, other.used = true → other.start ≠ given.start := by
  intro other otherMember isUsed sameStart
  rw [blocks.chain.eq_of_start member otherMember (sameStart.trans same), free] at isUsed
  exact Bool.noConfusion isUsed

/-- A used block moves to a larger one with its bytes. -/
theorem Invariant.move {size p : Nat} (count : Nat)
    (order : Invariant heap (before ++ tile :: after)) (isUsed : tile.used = true)
    (given : heap.rtMalloc size = some (heap', some p)) (short : count ≤ request size)
    (inside : tile.start + sizeofStructMem + count ≤ tile.stop) :
    ∃ heap'' tiles' target, (heap'.rtMemcpy p (tile.start + sizeofStructMem) count).rtFree
        (some (tile.start + sizeofStructMem)) = some heap'' ∧
      p = target.start + sizeofStructMem ∧ target.used = true ∧ Invariant heap'' tiles' ∧
      Turns heap (before ++ tile :: after) heap'' tiles' [tile] [target] ∧
      p + request size ≤ target.stop ∧
      PagedMemory.window heap''.bytes p count =
        PagedMemory.window heap.bytes (tile.start + sizeofStructMem) count ∧
      ∀ other ∈ before ++ tile :: after, other.used = true → other.start ≠ target.start := by
  rcases order.malloc size with ⟨refused, _⟩ |
    ⟨given', tiles', found, stop, called, member, fits, _, long, ordered, turns, _⟩
  · rw [refused] at given
    simp at given
  rw [called] at given
  obtain ⟨rfl, rfl⟩ : given' = heap' ∧ found.start + sizeofStructMem = p := by simpa using given
  have here : tile ∈ before ++ tile :: after := by simp
  have notTarget : tile ≠ ⟨found.start, stop, true⟩ := by
    intro same
    exact order.blocks.fresh ⟨found.start, stop, true⟩ member fits.1 rfl tile here isUsed
      (congrArg Tile.start same)
  have target : ⟨found.start, stop, true⟩ ∈ tiles' :=
    (turns.used _ rfl).mpr (Or.inr List.mem_cons_self)
  have still : tile ∈ tiles' := (turns.used _ isUsed).mpr (Or.inl ⟨here, List.not_mem_nil⟩)
  have length : (PagedMemory.window given'.bytes (tile.start + sizeofStructMem) count).length =
      count := PagedMemory.length_window _ _ _
  have fitsTarget : found.start + sizeofStructMem +
      (PagedMemory.window given'.bytes (tile.start + sizeofStructMem) count).length ≤ stop := by
    omega
  have copied := ordered.write target (Nat.le_refl _) fitsTarget
  have untouched := (ordered.blocks.write target (Nat.le_refl _) fitsTarget).2
  have filled := PagedMemory.window_store given'.bytes (found.start + sizeofStructMem)
    (PagedMemory.window given'.bytes (tile.start + sizeofStructMem) count)
  rw [length] at filled
  change Invariant (given'.rtMemcpy (found.start + sizeofStructMem) (tile.start + sizeofStructMem)
    count) tiles' at copied
  obtain ⟨front, rest, rfl⟩ := List.append_of_mem still
  obtain ⟨heap'', tiles'', freed, result, leaves, _⟩ := copied.free isUsed
  refine ⟨heap'', tiles'', ⟨found.start, stop, true⟩, freed, rfl, rfl, result, ?_, long, ?_,
    order.blocks.fresh _ member fits.1 rfl⟩
  · refine ⟨leaves.blocks, leaves.size.trans turns.size, fun other otherUsed => ?_,
      fun other otherMember otherUsed differs => ?_⟩
    · rw [leaves.used other otherUsed, turns.used other otherUsed]
      have targetDiffers : other = ⟨found.start, stop, true⟩ → other ≠ tile := by
        rintro rfl
        exact notTarget.symm
      simp only [List.mem_singleton, List.not_mem_nil, not_false_eq_true, and_true, or_false]
      tauto
    · have stays := (turns.used other otherUsed).mpr (Or.inl ⟨otherMember, List.not_mem_nil⟩)
      have notGiven : other ≠ ⟨found.start, stop, true⟩ := by
        intro same
        exact order.blocks.fresh ⟨found.start, stop, true⟩ member fits.1 rfl other
          otherMember otherUsed (congrArg Tile.start same)
      exact ((turns.kept other otherMember otherUsed List.not_mem_nil).trans
        (untouched other stays notGiven)).trans (leaves.kept other stays otherUsed differs)
  · have targetKept : Kept _ heap'' ⟨found.start, stop, true⟩ :=
      leaves.kept _ target rfl (by simpa using notTarget.symm)
    rw [targetKept.window (Nat.le_refl _) (by dsimp only; omega)]
    refine filled.trans ?_
    exact (turns.kept tile here isUsed List.not_mem_nil).window (Nat.le_refl _) inside

/-- `rt_realloc` of a used block to a size that is not zero: refused, or the block
stays, shrinks or moves with its bytes. -/
theorem Invariant.realloc (order : Invariant heap (before ++ tile :: after))
    (isUsed : tile.used = true) (newsize : Nat) (positive : rtAlign newsize ≠ 0) :
    heap.rtRealloc (some (tile.start + sizeofStructMem)) newsize = some (heap, none) ∨
    ∃ heap' tiles' given, heap.rtRealloc (some (tile.start + sizeofStructMem)) newsize =
        some (heap', some (given.start + sizeofStructMem)) ∧ given.used = true ∧
      Invariant heap' tiles' ∧ Turns heap (before ++ tile :: after) heap' tiles' [tile] [given] ∧
      given.start + sizeofStructMem + rtAlign newsize ≤ given.stop ∧
      PagedMemory.window heap'.bytes (given.start + sizeofStructMem)
          (min (rtAlign newsize) (tile.stop - (tile.start + sizeofStructMem))) =
        PagedMemory.window heap.bytes (tile.start + sizeofStructMem)
          (min (rtAlign newsize) (tile.stop - (tile.start + sizeofStructMem))) ∧
      (given.start = tile.start ∨
        ∀ other ∈ before ++ tile :: after, other.used = true → other.start ≠ given.start) := by
  have twelve : sizeofStructMem = 12 := rfl
  have smallest : minSizeAligned = 12 := rfl
  have member : tile ∈ before ++ tile :: after := by simp
  have bound := order.blocks.chain.bounds member
  have fits := order.blocks.fits
  have counted := order.counted
  have total := order.blocks.chain.usedBytes_le
  have aligned := rtAlign_aligned newsize
  have next : heap.nextAt tile.start = tile.stop := (order.blocks.chain.header member).2
  have payload : sizeSub (sizeSub tile.stop tile.start) sizeofStructMem =
      tile.stop - (tile.start + sizeofStructMem) := by
    have width : sizeSub tile.stop tile.start = tile.stop - tile.start :=
      sizeSub_of_le (by omega) (by omega)
    rw [width, sizeSub_of_le (by omega) (by omega), Nat.sub_sub]
  have again : request (rtAlign newsize) = max (rtAlign newsize) minSizeAligned := by
    rw [request, rtAlign_rtAlign]
  unfold Heap.rtRealloc
  dsimp only
  generalize rtAlign newsize = size at positive aligned again ⊢
  by_cases tooLarge : heap.memSizeAligned < size
  · exact Or.inl (if_pos tooLarge)
  rw [if_neg tooLarge, if_neg positive, if_neg (by omega), Nat.add_sub_cancel, next, payload]
  by_cases same : tile.stop - (tile.start + sizeofStructMem) = size
  · rw [if_pos same]
    refine Or.inr ⟨heap, before ++ tile :: after, tile, rfl, isUsed, order,
      ⟨order.blocks, rfl, fun other _ => ?_, fun _ _ _ _ _ _ _ => rfl⟩, by omega, rfl, Or.inl rfl⟩
    by_cases own : other = tile <;> simp [own]
  rw [if_neg same]
  by_cases small : size + sizeofStructMem + minSizeAligned <
      tile.stop - (tile.start + sizeofStructMem)
  · rw [if_pos small]
    obtain ⟨heap', tiles', plugged, ordered, turns, kept⟩ :=
      order.shrink isUsed (Nat.pos_of_ne_zero positive) aligned (by omega)
    have remaining : sizeSub heap.usedMem (tile.stop - (tile.start + sizeofStructMem) - size) =
        heap.usedMem - (tile.stop - (tile.start + sizeofStructMem + size)) := by
      have own : tile.stop - tile.start ≤ usedBytes (before ++ tile :: after) := by
        simp [usedBytes_append, usedBytes, isUsed]
        omega
      rw [sizeSub_of_le (by omega) (by omega), Nat.sub_sub tile.stop]
    rw [remaining, plugged]
    exact Or.inr ⟨heap', tiles', { tile with stop := tile.start + sizeofStructMem + size }, rfl,
      isUsed, ordered, turns, Nat.le_refl _,
      kept.window (Nat.le_refl _) (by dsimp only; omega), Or.inl rfl⟩
  · rw [if_neg small]
    have least : (if tile.stop - (tile.start + sizeofStructMem) < size then
        tile.stop - (tile.start + sizeofStructMem) else size) =
          min size (tile.stop - (tile.start + sizeofStructMem)) := by
      split <;> omega
    rcases called : heap.rtMalloc size with _ | ⟨heap', _ | p⟩
    · rcases order.malloc size with ⟨refused, _⟩ | ⟨_, _, _, _, given, _⟩
      · rw [refused] at called
        exact absurd called (Option.some_ne_none _)
      · rw [given] at called
        exact absurd called (Option.some_ne_none _)
    · rcases order.malloc size with ⟨refused, _⟩ | ⟨_, _, _, _, given, _⟩
      · rw [refused] at called
        exact Or.inl called.symm
      · rw [given] at called
        simp at called
    · obtain ⟨heap'', tiles', target, freed, rfl, targetUsed, ordered, turns, long, window,
        fresh⟩ := order.move (min size (tile.stop - (tile.start + sizeofStructMem))) isUsed
          called (by omega) (by omega)
      dsimp only
      rw [least, freed]
      exact Or.inr ⟨heap'', tiles', target, rfl, targetUsed, ordered, turns, by omega, window,
        Or.inr fresh⟩

end RttIctl.Kernel.Heap
