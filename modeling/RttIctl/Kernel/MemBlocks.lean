import RttIctl.Kernel.Mem

/-!
Owns the division of the heap memory into blocks, and what marking, cutting and
merging a block make of it: the headers agree with the blocks again, and no byte
outside the headers that are written changes. `plug_holes` is followed here.

It does not own which block a call picks.
-/

namespace RttIctl.Kernel.Heap

open Lib

variable {heap heap' : Heap} {mem value : Nat}

/-! ### Blocks -/

/-- The heap memory is divided into the given blocks. -/
structure Blocks (heap : Heap) (tiles : List Tile) : Prop where
  chain : Chain sizeofStructMem heap.link 0 0 tiles heap.heapEnd
  ending : (heap.link heap.heapEnd).used = true
  magic : ∀ tile ∈ tiles, heap.magicAt tile.start = heapMagic
  aligned : ∀ tile ∈ tiles, tile.start % 4 = 0
  alignedEnd : heap.heapEnd % 4 = 0
  fits : heap.heapEnd < 2 ^ 32

/-- The variables beside the memory do not count. -/
theorem Blocks.of_same {tiles : List Tile} (blocks : Blocks heap tiles)
    (bytes : heap'.bytes = heap.bytes) (size : heap'.memSizeAligned = heap.memSizeAligned) :
    Blocks heap' tiles := by
  obtain ⟨chain, ending, magic, aligned, alignedEnd, fits⟩ := blocks
  obtain ⟨_, _, _, _, _⟩ := heap
  obtain ⟨_, _, _, _, _⟩ := heap'
  subst bytes size
  exact ⟨chain, ending, magic, aligned, alignedEnd, fits⟩

section Boundaries

open Chain

variable {prev start stop : Nat} {linkOf : Nat → Link} {tiles : List Tile} {offsets : List Nat}

theorem separate_of_boundaries (chain : Chain sizeofStructMem linkOf prev start tiles stop)
    (written : ∀ offset ∈ offsets, Boundary tiles stop offset) (here : Boundary tiles stop mem) :
    Separate offsets mem := by
  intro other member
  have := chain.boundary_apart (written other member) here
  omega

theorem apart_of_boundaries (chain : Chain sizeofStructMem linkOf prev start tiles stop)
    (written : ∀ offset ∈ offsets, Boundary tiles stop offset) (here : Boundary tiles stop mem)
    (differs : mem ∉ offsets) : Apart offsets mem := by
  intro other member
  have := separate_of_boundaries chain written here other member
  have : other ≠ mem := by
    rintro rfl
    exact differs member
  omega

end Boundaries

section Rewrites

open Chain

variable {before after : List Tile} {tile : Tile}

/-- Blocks again, when the magic numbers are there and every block starts where
one started before. -/
theorem Blocks.rewrite {tiles tiles' : List Tile} {offsets : List Nat} (blocks : Blocks heap tiles)
    (touches : Touches heap heap' offsets)
    (written : ∀ offset ∈ offsets, Boundary tiles heap.heapEnd offset)
    (chain : Chain sizeofStructMem heap'.link 0 0 tiles' heap.heapEnd)
    (ending : (heap'.link heap.heapEnd).used = true)
    (starts : ∀ tile ∈ tiles', ∃ old ∈ tiles, old.start = tile.start) : Blocks heap' tiles' := by
  have sameEnd := touches.heapEnd
  refine ⟨?_, ?_, ?_, ?_, ?_, ?_⟩
  · rw [sameEnd]
    exact chain
  · rw [sameEnd]
    exact ending
  · intro tile member
    obtain ⟨old, oldMember, same⟩ := starts tile member
    rw [← same]
    apply touches.magic _ _ (blocks.magic old oldMember)
    exact separate_of_boundaries blocks.chain written (boundary_start oldMember)
  · intro tile member
    obtain ⟨old, oldMember, same⟩ := starts tile member
    rw [← same]
    exact blocks.aligned old oldMember
  · rw [sameEnd]
    exact blocks.alignedEnd
  · rw [sameEnd]
    exact blocks.fits

/-- A header that is not written keeps what it says. -/
theorem Blocks.link_kept {tiles : List Tile} {offsets : List Nat} (blocks : Blocks heap tiles)
    (touches : Touches heap heap' offsets)
    (written : ∀ offset ∈ offsets, Boundary tiles heap.heapEnd offset) {place : Nat}
    (here : Boundary tiles heap.heapEnd place) (differs : place ∉ offsets) :
    heap'.link place = heap.link place :=
  touches.link (apart_of_boundaries blocks.chain written here differs)

/-- Marking a block used or free. -/
theorem Blocks.mark (blocks : Blocks heap (before ++ tile :: after)) (fits : value < 2 ^ 16) :
    Blocks (heap.setUsed tile.start value)
      (before ++ { tile with used := value ≠ 0 } :: after) := by
  have touches := heap.touches_setUsed tile.start value
  have member : tile ∈ before ++ tile :: after := List.mem_append_right _ List.mem_cons_self
  have bound := blocks.chain.bounds member
  have written : ∀ offset ∈ [tile.start],
      Boundary (before ++ tile :: after) heap.heapEnd offset := by
    intro offset isTile
    rw [List.mem_singleton.mp isTile]
    exact boundary_start member
  have kept : ∀ place, Boundary (before ++ tile :: after) heap.heapEnd place →
      place ≠ tile.start → (heap.setUsed tile.start value).link place = heap.link place := by
    intro place here differs
    exact blocks.link_kept touches written here (mt List.mem_singleton.mp differs)
  refine blocks.rewrite touches written ?_ ?_ ?_
  · exact blocks.chain.mark _ (heap.link_setUsed tile.start fits) kept
  · rw [kept _ (Or.inl rfl) (by omega)]
    exact blocks.ending
  · simp only [List.forall_mem_append, List.forall_mem_cons]
    refine ⟨fun other front => ⟨other, by simp [front], rfl⟩, ⟨tile, member, rfl⟩,
      fun other back => ⟨other, by simp [back], rfl⟩⟩

/-- Merging a block with the one that follows it. -/
theorem Blocks.merge {following : Tile}
    (blocks : Blocks heap (before ++ tile :: following :: after)) :
    Blocks (heap.absorb tile.start following.start)
        (before ++ { tile with stop := following.stop } :: after) ∧
      Touches heap (heap.absorb tile.start following.start) [tile.start, following.stop] ∧
      (heap.absorb tile.start following.start).usedMem = heap.usedMem ∧
      (heap.absorb tile.start following.start).lfree =
        if heap.lfree = following.start then tile.start else heap.lfree := by
  have member : tile ∈ before ++ tile :: following :: after := by simp
  have nextMember : following ∈ before ++ tile :: following :: after := by simp
  have bound := blocks.chain.bounds member
  have nextBound := blocks.chain.bounds nextMember
  have fits := blocks.fits
  have stops : heap.nextAt following.start = following.stop :=
    (blocks.chain.header nextMember).2
  obtain ⟨_, later⟩ := blocks.chain.apart
  have adjacent := later following List.mem_cons_self
  have written : ∀ offset ∈ [tile.start, following.stop],
      Boundary (before ++ tile :: following :: after) heap.heapEnd offset := by
    simp only [List.forall_mem_cons, List.not_mem_nil, false_implies, implies_true, and_true]
    exact ⟨boundary_start member, blocks.chain.boundary_stop nextMember⟩
  have first := heap.touches_setNext tile.start following.stop
  have second := (heap.setNext tile.start following.stop).touches_setPrev following.stop tile.start
  have apart : Apart [tile.start] following.start := by
    intro other isStart
    rw [List.mem_singleton.mp isStart]
    omega
  have still : ((heap.setNext tile.start following.stop).nextAt following.start) = following.stop :=
    (congrArg Link.next (first.link apart)).trans stops
  have written_out : heap.absorb tile.start following.start =
      { (heap.setNext tile.start following.stop).setPrev following.stop tile.start with
        lfree := if heap.lfree = following.start then tile.start else heap.lfree } := by
    show (({ heap with lfree := _ } : Heap).setNext tile.start
      (heap.nextAt following.start)).setPrev
        ((heap.setNext tile.start (heap.nextAt following.start)).nextAt following.start)
        tile.start = _
    rw [stops, still]
    rfl
  rw [written_out]
  generalize isJoined : (heap.setNext tile.start following.stop).setPrev following.stop tile.start =
    joined at second ⊢
  have touches : Touches heap joined [tile.start, following.stop] :=
    (first.mono (by simp)).trans (second.mono (by simp))
  have kept : ∀ place, Boundary (before ++ tile :: following :: after) heap.heapEnd place →
      place ≠ tile.start → place ≠ following.stop → joined.link place = heap.link place := by
    intro place here notOwn notNext
    exact blocks.link_kept touches written here (by simp [notOwn, notNext])
  have own : joined.link tile.start = { heap.link tile.start with next := following.stop } := by
    rw [second.link, link_setNext _ _ (by omega)]
    rintro offset isStop
    rw [List.mem_singleton.mp isStop]
    omega
  have next : joined.link following.stop =
      { heap.link following.stop with prev := tile.start } := by
    rw [← isJoined, link_setPrev _ _ (by omega), first.link]
    rintro offset isStart
    rw [List.mem_singleton.mp isStart]
    omega
  have merged : Blocks joined (before ++ { tile with stop := following.stop } :: after) := by
    refine blocks.rewrite touches written (blocks.chain.merge own next kept) ?_ ?_
    · by_cases last : following.stop = heap.heapEnd
      · rw [← last, next, last]
        exact blocks.ending
      · rw [kept _ (Or.inl rfl) (by omega) (Ne.symm last)]
        exact blocks.ending
    · simp only [List.forall_mem_append, List.forall_mem_cons]
      exact ⟨fun other front => ⟨other, by simp [front], rfl⟩, ⟨tile, member, rfl⟩,
        fun other back => ⟨other, by simp [back], rfl⟩⟩
  refine ⟨merged.of_same rfl rfl, ⟨touches.size, touches.bytes, touches.magic⟩, ?_, rfl⟩
  rw [← isJoined]
  rfl

theorem touches_freeHeader (heap : Heap) (mem next prev : Nat) :
    Touches heap (heap.freeHeader mem next prev) [mem] :=
  (((touches_setMagic _ _).trans (touches_setUsed _ _ _)).trans (touches_setNext _ _ _)).trans
    (touches_setPrev _ _ _)

theorem link_freeHeader (heap : Heap) (mem : Nat) {next prev : Nat} (nextFits : next < 2 ^ 32)
    (prevFits : prev < 2 ^ 32) :
    (heap.freeHeader mem next prev).link mem = ⟨false, next, prev⟩ := by
  rw [freeHeader, link_setPrev _ _ prevFits, link_setNext _ _ nextFits,
    link_setUsed _ _ (by decide)]
  rfl

theorem magicAt_freeHeader (heap : Heap) (mem next prev : Nat) :
    (heap.freeHeader mem next prev).magicAt mem = heapMagic := by
  rw [freeHeader, magicAt_setPrev, magicAt_setNext, magicAt_setUsed, magicAt_setMagic]

/-- The new header and the one of the block that was cut. -/
theorem freeHeader_setNext {ptr ptr2 next : Nat} (apart : ptr + sizeofStructMem ≤ ptr2)
    (nextFits : next < 2 ^ 32) (cutFits : ptr2 < 2 ^ 32) :
    ((heap.freeHeader ptr2 next ptr).setNext ptr ptr2).link ptr2 = ⟨false, next, ptr⟩ ∧
      ((heap.freeHeader ptr2 next ptr).setNext ptr ptr2).link ptr =
        { heap.link ptr with next := ptr2 } ∧
      ((heap.freeHeader ptr2 next ptr).setNext ptr ptr2).magicAt ptr2 = heapMagic ∧
      Touches heap ((heap.freeHeader ptr2 next ptr).setNext ptr ptr2) [ptr2, ptr] := by
  have fresh := heap.touches_freeHeader ptr2 next ptr
  have own := (heap.freeHeader ptr2 next ptr).touches_setNext ptr ptr2
  have cutApart : Apart [ptr] ptr2 := by
    intro other isPtr
    rw [List.mem_singleton.mp isPtr]
    exact Or.inr apart
  have ptrApart : Apart [ptr2] ptr := by
    intro other isCut
    rw [List.mem_singleton.mp isCut]
    exact Or.inl apart
  refine ⟨?_, ?_, ?_, (fresh.mono (by simp)).trans (own.mono (by simp))⟩
  · rw [own.link cutApart, link_freeHeader _ _ nextFits (by omega)]
  · rw [link_setNext _ _ cutFits, fresh.link ptrApart]
  · exact own.magic ptr2 (fun other member => Or.inr (cutApart other member))
      (magicAt_freeHeader _ _ _ _)

/-- Cutting a block in two. -/
theorem Blocks.cut {size : Nat} (blocks : Blocks heap (before ++ tile :: after))
    (positive : 0 < size) (aligned : size % 4 = 0)
    (room : tile.start + sizeofStructMem + size + sizeofStructMem < tile.stop) :
    Blocks (heap.cutBehind tile.start size)
        (before ++ { tile with stop := tile.start + sizeofStructMem + size } ::
          ⟨tile.start + sizeofStructMem + size, tile.stop, false⟩ :: after) ∧
      Touches heap (heap.cutBehind tile.start size)
        [tile.start + sizeofStructMem + size, tile.start, tile.stop] := by
  have twelve : sizeofStructMem = 12 := rfl
  have member : tile ∈ before ++ tile :: after := by simp
  have bound := blocks.chain.bounds member
  have fits := blocks.fits
  have alignedTile := blocks.aligned tile member
  have next : heap.nextAt tile.start = tile.stop := (blocks.chain.header member).2
  generalize isCut : tile.start + sizeofStructMem + size = ptr2 at room ⊢
  obtain ⟨freshLink, ownLink, freshMagic, touched⟩ := heap.freeHeader_setNext
    (show tile.start + sizeofStructMem ≤ ptr2 by omega) (show tile.stop < 2 ^ 32 by omega)
    (show ptr2 < 2 ^ 32 by omega)
  have unfolded : heap.cutBehind tile.start size =
      if tile.stop ≠ heap.heapEnd then
        ((heap.freeHeader ptr2 tile.stop tile.start).setNext tile.start ptr2).setPrev tile.stop ptr2
      else (heap.freeHeader ptr2 tile.stop tile.start).setNext tile.start ptr2 := by
    have nextCut : ((heap.freeHeader ptr2 tile.stop tile.start).setNext tile.start ptr2).nextAt
        ptr2 = tile.stop := congrArg Link.next freshLink
    rw [cutBehind, isCut, next, nextCut]
    rfl
  generalize heap.cutBehind tile.start size = heap' at unfolded ⊢
  generalize (heap.freeHeader ptr2 tile.stop tile.start).setNext tile.start ptr2 = middle
    at freshLink ownLink freshMagic touched unfolded
  have cutApart : Apart [tile.stop] ptr2 := by
    intro other isStop
    rw [List.mem_singleton.mp isStop]
    omega
  have startApart : Apart [tile.stop] tile.start := by
    intro other isStop
    rw [List.mem_singleton.mp isStop]
    omega
  have stopApart : Apart [ptr2, tile.start] tile.stop := by
    simp only [Apart, List.forall_mem_cons, List.not_mem_nil, false_implies, implies_true, and_true]
    omega
  have written : Touches middle heap' [tile.stop] ∧
      (tile.stop = heap.heapEnd ∧ heap' = middle ∨
        heap'.link tile.stop = { middle.link tile.stop with prev := ptr2 }) := by
    rw [unfolded]
    split
    · exact ⟨middle.touches_setPrev _ _, Or.inr (link_setPrev _ _ (by omega))⟩
    · next last => exact ⟨Touches.refl _ _, Or.inl ⟨not_not.mp last, rfl⟩⟩
  obtain ⟨last, stopLink⟩ := written
  have touches : Touches heap heap' [ptr2, tile.start, tile.stop] :=
    (touched.mono (by simp)).trans (last.mono (by simp))
  rw [touched.link stopApart] at stopLink
  have kept : ∀ place, Boundary (before ++ tile :: after) heap.heapEnd place →
      place ≠ tile.start → place ≠ tile.stop → heap'.link place = heap.link place := by
    intro place here notStart notStop
    apply touches.link
    have := blocks.chain.boundary_apart here (boundary_start member)
    have := blocks.chain.boundary_apart here (blocks.chain.boundary_stop member)
    have := blocks.chain.boundary_outside here member
    simp only [Apart, List.forall_mem_cons, List.not_mem_nil, false_implies, implies_true, and_true]
    omega
  have oldMagic : ∀ other ∈ before ++ tile :: after, heap'.magicAt other.start = heapMagic := by
    intro other otherMember
    apply touches.magic _ _ (blocks.magic other otherMember)
    have here : Boundary _ heap.heapEnd other.start := boundary_start otherMember
    have := blocks.chain.boundary_apart here (boundary_start member)
    have := blocks.chain.boundary_apart here (blocks.chain.boundary_stop member)
    have := blocks.chain.boundary_outside here member
    simp only [Separate, List.forall_mem_cons, List.not_mem_nil, false_implies, implies_true,
      and_true]
    omega
  have fresh : heap'.link ptr2 = ⟨false, tile.stop, tile.start⟩ :=
    (last.link cutApart).trans freshLink
  have own : heap'.link tile.start = { heap.link tile.start with next := ptr2 } :=
    (last.link startApart).trans ownLink
  have sameEnd := touches.heapEnd
  refine ⟨⟨?_, ?_, ?_, ?_, ?_, ?_⟩, touches⟩
  · rw [sameEnd]
    exact blocks.chain.split (by omega) room own fresh (stopLink.imp_left And.left) kept
  · rw [sameEnd]
    rcases stopLink with ⟨isEnd, same⟩ | stopLink
    · rw [same, touched.link (isEnd ▸ stopApart)]
      exact blocks.ending
    · by_cases isEnd : tile.stop = heap.heapEnd
      · rw [← isEnd, stopLink, isEnd]
        exact blocks.ending
      · rw [kept _ (Or.inl rfl) (by omega) (Ne.symm isEnd)]
        exact blocks.ending
  · simp only [List.forall_mem_append, List.forall_mem_cons] at oldMagic ⊢
    have freshKept := last.magic _ (fun other isStop => Or.inr (cutApart other isStop)) freshMagic
    exact ⟨oldMagic.1, oldMagic.2.1, freshKept, oldMagic.2.2⟩
  · have old := blocks.aligned
    simp only [List.forall_mem_append, List.forall_mem_cons] at old ⊢
    exact ⟨old.1, old.2.1, by omega, old.2.2⟩
  · rw [sameEnd]
    exact blocks.alignedEnd
  · rw [sameEnd]
    exact blocks.fits

/-! ### Closing holes -/

theorem usedAt_eq_zero_iff {tiles : List Tile} (blocks : Blocks heap tiles) {tile : Tile}
    (member : tile ∈ tiles) : heap.usedAt tile.start = 0 ↔ tile.used = false := by
  have header : decide (heap.usedAt tile.start ≠ 0) = tile.used :=
    (blocks.chain.header member).1
  rw [← header]
  simp

/-- A free block is joined with a free one behind it. -/
theorem Blocks.plugForward (blocks : Blocks heap (before ++ tile :: after)) :
    (heap.plugForward tile.start = heap ∧ ∀ next ∈ after.head?, next.used = true) ∨
      ∃ next rest, after = next :: rest ∧ next.used = false ∧
        heap.plugForward tile.start = heap.absorb tile.start next.start := by
  have member : tile ∈ before ++ tile :: after := by simp
  have bound := blocks.chain.bounds member
  have stop : heap.nextAt tile.start = tile.stop := (blocks.chain.header member).2
  obtain ⟨_, _, _, back⟩ := blocks.chain.around
  unfold Heap.plugForward
  rw [stop]
  cases after with
  | nil =>
      have isEnd : tile.stop = heap.heapEnd := back
      exact Or.inl ⟨if_neg (by simp [isEnd]), by simp⟩
  | cons next rest =>
      have nextMember : next ∈ before ++ tile :: next :: rest := by simp
      have adjacent : next.start = tile.stop := back.1
      have nextBound := blocks.chain.bounds nextMember
      have usedIff := usedAt_eq_zero_iff blocks nextMember
      cases isUsed : next.used with
      | true =>
          rw [isUsed] at usedIff
          refine Or.inl ⟨if_neg ?_, by simp [isUsed]⟩
          rintro ⟨_, unused, _⟩
          rw [← adjacent, usedIff] at unused
          exact Bool.noConfusion unused
      | false =>
          have taken : tile.start ≠ tile.stop ∧ heap.usedAt tile.stop = 0 ∧
              tile.stop ≠ heap.heapEnd := by
            rw [← adjacent]
            exact ⟨by omega, usedIff.mpr isUsed, by omega⟩
          refine Or.inr ⟨next, rest, rfl, isUsed, ?_⟩
          rw [if_pos taken, adjacent]

/-- A free block is joined with a free one in front of it. -/
theorem Blocks.plugBackward (blocks : Blocks heap (before ++ tile :: after)) :
    (heap.plugBackward tile.start = heap ∧ ∀ last ∈ before.getLast?, last.used = true) ∨
      ∃ front last, before = front ++ [last] ∧ last.used = false ∧
        heap.plugBackward tile.start = heap.absorb last.start tile.start := by
  obtain ⟨_, _, header, _⟩ := blocks.chain.around
  have prev : heap.prevAt tile.start = lastStart 0 before := congrArg Link.prev header
  unfold Heap.plugBackward
  rw [prev]
  rcases List.eq_nil_or_concat before with rfl | ⟨front, last, rfl⟩
  · obtain ⟨begins, _⟩ := blocks.chain
    exact Or.inl ⟨if_neg (by simp [lastStart, begins]), by simp⟩
  · rw [List.concat_eq_append] at blocks ⊢
    have member : last ∈ (front ++ [last]) ++ tile :: after := by simp
    have bound := blocks.chain.bounds member
    have adjacent := blocks.chain.apart.1 last (by simp)
    have usedIff := usedAt_eq_zero_iff blocks member
    rw [lastStart_append]
    cases isUsed : last.used with
    | true =>
        rw [isUsed] at usedIff
        refine Or.inl ⟨if_neg ?_, by simp [isUsed]⟩
        rintro ⟨_, unused⟩
        exact Bool.noConfusion (usedIff.mp unused)
    | false =>
        exact Or.inr ⟨front, last, rfl, isUsed,
          if_pos ⟨by omega, usedIff.mpr isUsed⟩⟩

end Rewrites

section Changes

open Chain

variable {tiles tiles' : List Tile}

/-! ### Payloads -/

/-- The bytes behind the header of a block stay. -/
def Kept (heap heap' : Heap) (tile : Tile) : Prop :=
  ∀ address, tile.start + sizeofStructMem ≤ address → address < tile.stop →
    heap'.bytes address = heap.bytes address

theorem Kept.trans {heap'' : Heap} {tile : Tile} (first : Kept heap heap' tile)
    (second : Kept heap' heap'' tile) : Kept heap heap'' tile := by
  intro address low high
  rw [second address low high, first address low high]

/-- Writing headers that stand outside a block keeps its payload. -/
theorem Touches.kept {offsets : List Nat} {tile : Tile} (touches : Touches heap heap' offsets)
    (outside : ∀ offset ∈ offsets, offset ≤ tile.start ∨ tile.stop ≤ offset) :
    Kept heap heap' tile := by
  intro address low high
  apply touches.bytes
  intro offset member
  have := outside offset member
  omega

/-- From one division of the heap to another: the used blocks `gone` leave, the
used blocks `given` come, and every other used block keeps its place and bytes. -/
structure Turns (heap : Heap) (tiles : List Tile) (heap' : Heap) (tiles' : List Tile)
    (gone given : List Tile) : Prop where
  blocks : Blocks heap' tiles'
  size : heap'.memSizeAligned = heap.memSizeAligned
  used : ∀ tile, tile.used = true →
    (tile ∈ tiles' ↔ (tile ∈ tiles ∧ tile ∉ gone) ∨ tile ∈ given)
  kept : ∀ tile ∈ tiles, tile.used = true → tile ∉ gone → Kept heap heap' tile

/-- No block below `lfree` is free. -/
def Below (heap : Heap) (tiles : List Tile) : Prop :=
  ∀ tile ∈ tiles, tile.used = false → heap.lfree ≤ tile.start

/-! ### Closing holes -/

/-- Free blocks were joined. -/
structure Joins (heap : Heap) (tiles : List Tile) (heap' : Heap) (tiles' : List Tile) : Prop where
  turns : Turns heap tiles heap' tiles' [] []
  counted : heap'.usedMem = heap.usedMem ∧ usedBytes tiles' = usedBytes tiles
  lowest : Boundary tiles heap.heapEnd heap.lfree → Boundary tiles' heap.heapEnd heap'.lfree
  lower : heap'.lfree ≤ heap.lfree
  below : Below heap tiles → Below heap' tiles'

theorem Turns.heapEnd {gone given : List Tile} (turns : Turns heap tiles heap' tiles' gone given) :
    heap'.heapEnd = heap.heapEnd := by
  rw [Heap.heapEnd, turns.size]
  rfl

/-- Two changes one after the other, the first of which moves no used block. -/
theorem Turns.trans {heap'' : Heap} {tiles'' gone given : List Tile}
    (first : Turns heap tiles heap' tiles' gone given)
    (second : Turns heap' tiles' heap'' tiles'' [] []) :
    Turns heap tiles heap'' tiles'' gone given where
  blocks := second.blocks
  size := second.size.trans first.size
  used tile isUsed := by
    rw [second.used tile isUsed, ← first.used tile isUsed]
    simp
  kept tile member isUsed stays := by
    have inFirst : tile ∈ tiles' := (first.used tile isUsed).mpr (Or.inl ⟨member, stays⟩)
    exact (first.kept tile member isUsed stays).trans
      (second.kept tile inFirst isUsed List.not_mem_nil)

/-- Two changes one after the other, the second of which moves no used block. -/
theorem Turns.after_none {heap'' : Heap} {tiles'' gone given : List Tile}
    (first : Turns heap tiles heap' tiles' [] [])
    (second : Turns heap' tiles' heap'' tiles'' gone given) :
    Turns heap tiles heap'' tiles'' gone given where
  blocks := second.blocks
  size := second.size.trans first.size
  used tile isUsed := by
    rw [second.used tile isUsed, first.used tile isUsed]
    simp
  kept tile member isUsed stays := by
    have inFirst : tile ∈ tiles' :=
      (first.used tile isUsed).mpr (Or.inl ⟨member, List.not_mem_nil⟩)
    exact (first.kept tile member isUsed List.not_mem_nil).trans
      (second.kept tile inFirst isUsed stays)

/-- Only the memory counts in a change of blocks. -/
theorem Turns.of_same {heap'' : Heap} {gone given : List Tile}
    (turns : Turns heap tiles heap' tiles' gone given) (bytes : heap''.bytes = heap'.bytes)
    (size : heap''.memSizeAligned = heap'.memSizeAligned) :
    Turns heap tiles heap'' tiles' gone given where
  blocks := turns.blocks.of_same bytes size
  size := size.trans turns.size
  used := turns.used
  kept tile member isUsed stays address low high := by
    rw [bytes]
    exact turns.kept tile member isUsed stays address low high

/-- A free block that leaves does not count. -/
theorem Turns.drop_gone {given : List Tile} {tile : Tile}
    (turns : Turns heap tiles heap' tiles' [tile] given) (free : tile.used = false) :
    Turns heap tiles heap' tiles' [] given := by
  have other {used : Tile} (isUsed : used.used = true) : used ∉ [tile] := by
    intro member
    rw [List.mem_singleton.mp member, free] at isUsed
    exact Bool.noConfusion isUsed
  refine ⟨turns.blocks, turns.size, fun used isUsed => ?_, fun used member isUsed _ =>
    turns.kept used member isUsed (other isUsed)⟩
  rw [turns.used used isUsed]
  simp only [other isUsed, List.not_mem_nil]

/-- A free block that comes does not count. -/
theorem Turns.drop_given {gone : List Tile} {tile : Tile}
    (turns : Turns heap tiles heap' tiles' gone [tile]) (free : tile.used = false) :
    Turns heap tiles heap' tiles' gone [] := by
  have other {used : Tile} (isUsed : used.used = true) : used ∉ [tile] := by
    intro member
    rw [List.mem_singleton.mp member, free] at isUsed
    exact Bool.noConfusion isUsed
  refine ⟨turns.blocks, turns.size, fun used isUsed => ?_, turns.kept⟩
  rw [turns.used used isUsed]
  simp only [other isUsed, List.not_mem_nil]

theorem Joins.refl (blocks : Blocks heap tiles) : Joins heap tiles heap tiles where
  turns := ⟨blocks, rfl, by simp, fun _ _ _ _ _ _ _ => rfl⟩
  counted := ⟨rfl, rfl⟩
  lowest boundary := boundary
  lower := Nat.le_refl _
  below := id

theorem Joins.trans {heap'' : Heap} {tiles'' : List Tile} (first : Joins heap tiles heap' tiles')
    (second : Joins heap' tiles' heap'' tiles'') : Joins heap tiles heap'' tiles'' where
  turns := first.turns.trans second.turns
  counted := ⟨second.counted.1.trans first.counted.1, second.counted.2.trans first.counted.2⟩
  lowest boundary := by
    have := second.lowest
    rw [first.turns.heapEnd] at this
    exact this (first.lowest boundary)
  lower := Nat.le_trans second.lower first.lower
  below before := second.below (first.below before)

section Joining

variable {before after : List Tile} {tile following : Tile}

theorem Blocks.joins (blocks : Blocks heap (before ++ tile :: following :: after))
    (free : tile.used = false) (alsoFree : following.used = false) :
    Joins heap (before ++ tile :: following :: after) (heap.absorb tile.start following.start)
      (before ++ { tile with stop := following.stop } :: after) := by
  obtain ⟨merged, touches, usedMem, lfree⟩ := blocks.merge
  have member : tile ∈ before ++ tile :: following :: after := by simp
  have nextMember : following ∈ before ++ tile :: following :: after := by simp
  have bound := blocks.chain.bounds member
  have adjacent := blocks.chain.apart.2 following List.mem_cons_self
  refine ⟨⟨merged, touches.size, ?_, ?_⟩, ⟨usedMem, ?_⟩, ?_, ?_, ?_⟩
  · intro other isUsed
    have notTile : other ≠ tile := by
      rintro rfl
      rw [isUsed] at free
      exact Bool.noConfusion free
    have notFollowing : other ≠ following := by
      rintro rfl
      rw [isUsed] at alsoFree
      exact Bool.noConfusion alsoFree
    have notJoined : other ≠ { tile with stop := following.stop } := by
      rintro rfl
      rw [show tile.used = true from isUsed] at free
      exact Bool.noConfusion free
    simp [notTile, notFollowing, notJoined]
  · intro other otherMember _ _
    apply touches.kept
    simp only [List.forall_mem_cons, List.not_mem_nil, false_implies, implies_true, and_true]
    exact ⟨blocks.chain.boundary_outside (boundary_start member) otherMember,
      blocks.chain.boundary_outside (blocks.chain.boundary_stop nextMember) otherMember⟩
  · simp [usedBytes_append, usedBytes, free, alsoFree]
  · intro boundary
    rw [lfree]
    split
    · exact Or.inr ⟨{ tile with stop := following.stop }, by simp, rfl⟩
    · next elsewhere =>
        rcases boundary with isEnd | ⟨other, otherMember, same⟩
        · exact Or.inl isEnd
        · simp only [List.mem_append, List.mem_cons] at otherMember
          rcases otherMember with front | rfl | rfl | back
          · exact Or.inr ⟨other, by simp [front], same⟩
          · exact Or.inr ⟨{ other with stop := following.stop }, by simp, same⟩
          · exact absurd same.symm elsewhere
          · exact Or.inr ⟨other, by simp [back], same⟩
  · rw [lfree]
    split <;> omega
  · intro below other otherMember isFree
    have own := below tile member free
    rw [lfree]
    have lowered : (if heap.lfree = following.start then tile.start else heap.lfree) ≤
        heap.lfree := by
      split <;> omega
    simp only [List.mem_append, List.mem_cons] at otherMember
    rcases otherMember with front | rfl | back
    · exact Nat.le_trans lowered (below other (by simp [front]) isFree)
    · exact Nat.le_trans lowered own
    · exact Nat.le_trans lowered (below other (by simp [back]) isFree)

/-- The free block and the one behind it. -/
theorem Blocks.plugForward_joins (blocks : Blocks heap (before ++ tile :: after))
    (free : tile.used = false) (back : Coalesced after) :
    ∃ stop rest, Joins heap (before ++ tile :: after) (heap.plugForward tile.start)
        (before ++ { tile with stop := stop } :: rest) ∧
      Coalesced ({ tile with stop := stop } :: rest) := by
  rcases blocks.plugForward with ⟨same, nextUsed⟩ | ⟨next, rest, rfl, nextFree, joined⟩
  · rw [same]
    exact ⟨tile.stop, after, Joins.refl blocks,
      List.isChain_cons.mpr ⟨fun next isNext => Or.inr (nextUsed next isNext), back⟩⟩
  · rw [joined]
    obtain ⟨others, rest'⟩ := List.isChain_cons.mp back
    refine ⟨next.stop, rest, blocks.joins free nextFree, List.isChain_cons.mpr ⟨?_, rest'⟩⟩
    intro other isOther
    have := others other isOther
    rw [nextFree] at this
    exact Or.inr (this.resolve_left Bool.false_ne_true)

/-- The free block and the one in front of it. -/
theorem Blocks.plugBackward_joins (blocks : Blocks heap (before ++ tile :: after))
    (free : tile.used = false) (front : Coalesced before) (back : Coalesced (tile :: after)) :
    ∃ tiles', Joins heap (before ++ tile :: after) (heap.plugBackward tile.start) tiles' ∧
      Coalesced tiles' := by
  rcases blocks.plugBackward with ⟨same, lastUsed⟩ | ⟨earlier, last, rfl, lastFree, joined⟩
  · rw [same]
    refine ⟨_, Joins.refl blocks, List.isChain_append.mpr ⟨front, back, ?_⟩⟩
    intro other isLast _ _
    exact Or.inl (lastUsed other isLast)
  · rw [joined]
    rw [List.append_assoc] at blocks ⊢
    obtain ⟨earlierChain, _, lastNext⟩ := List.isChain_append.mp front
    obtain ⟨others, rest⟩ := List.isChain_cons.mp back
    refine ⟨_, blocks.joins lastFree free, List.isChain_append.mpr ⟨earlierChain,
      List.isChain_cons.mpr ⟨?_, rest⟩, ?_⟩⟩
    · intro other isOther
      have := others other isOther
      rw [free] at this
      exact Or.inr (this.resolve_left Bool.false_ne_true)
    · intro other isOther joined isJoined
      have := lastNext other isOther last (by simp)
      rw [lastFree] at this
      exact Or.inl (this.resolve_right Bool.false_ne_true)

/-- After `plug_holes` no two free blocks stand side by side. -/
theorem Blocks.plugHoles (blocks : Blocks heap (before ++ tile :: after))
    (free : tile.used = false) (front : Coalesced before) (back : Coalesced after) :
    ∃ heap' tiles', heap.plugHoles tile.start = some heap' ∧ Coalesced tiles' ∧
      Joins heap (before ++ tile :: after) heap' tiles' := by
  have member : tile ∈ before ++ tile :: after := by simp
  have bound := blocks.chain.bounds member
  obtain ⟨stop, rest, forward, coalesced⟩ := blocks.plugForward_joins free back
  obtain ⟨tiles', backward, whole⟩ :=
    forward.turns.blocks.plugBackward_joins free front coalesced
  refine ⟨_, tiles', if_pos ⟨by omega, (usedAt_eq_zero_iff blocks member).mpr free⟩, whole,
    forward.trans backward⟩

end Joining

end Changes

end RttIctl.Kernel.Heap
