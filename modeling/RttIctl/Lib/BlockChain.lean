import Mathlib.Algebra.GroupWithZero.Nat
import Mathlib.Data.List.Chain

/-!
Owns chains of blocks that lie side by side: every block starts with a header
that says whether the block is used, where it stops and where the block before
it starts. Marking, splitting and merging blocks are writes of two or three
headers; each has one rule here.

It does not own how a header is stored or who asks for a block.
-/

namespace RttIctl.Lib

/-- What a header says. -/
@[ext]
structure Link where
  used : Bool
  next : Nat
  prev : Nat
  deriving DecidableEq, Repr

/-- A block with its header, from `start` up to `stop`. -/
structure Tile where
  start : Nat
  stop : Nat
  used : Bool
  deriving DecidableEq, Repr

/-- The blocks from `start` to `stop`, each longer than `gap`, with headers that
agree with them; the block before the first starts at `prev`. -/
def Chain (gap : Nat) (link : Nat → Link) : Nat → Nat → List Tile → Nat → Prop
  | _, start, [], stop => start = stop
  | prev, start, tile :: rest, stop =>
      tile.start = start ∧ start + gap < tile.stop ∧ link start = ⟨tile.used, tile.stop, prev⟩ ∧
        Chain gap link start tile.stop rest stop

/-- Where the last block starts, or `prev` when there is none. -/
def lastStart : Nat → List Tile → Nat
  | prev, [] => prev
  | _, tile :: rest => lastStart tile.start rest

theorem lastStart_append (prev : Nat) (tiles : List Tile) (tile : Tile) :
    lastStart prev (tiles ++ [tile]) = tile.start := by
  induction tiles generalizing prev with
  | nil => rfl
  | cons head rest inductionHypothesis => exact inductionHypothesis head.start

namespace Chain

variable {gap prev start stop : Nat} {link link' : Nat → Link} {tiles before after : List Tile}

theorem append_iff :
    Chain gap link prev start (before ++ after) stop ↔
      ∃ middle, Chain gap link prev start before middle ∧
        Chain gap link (lastStart prev before) middle after stop := by
  induction before generalizing prev start with
  | nil =>
      constructor
      · intro chain
        exact ⟨start, rfl, chain⟩
      · rintro ⟨_, rfl, chain⟩
        exact chain
  | cons tile rest inductionHypothesis =>
      constructor
      · rintro ⟨first, long, header, chain⟩
        obtain ⟨middle, front, back⟩ := inductionHypothesis.mp chain
        exact ⟨middle, ⟨first, long, header, front⟩, by rw [lastStart, first]; exact back⟩
      · rintro ⟨middle, ⟨first, long, header, front⟩, back⟩
        rw [lastStart, first] at back
        exact ⟨first, long, header, inductionHypothesis.mpr ⟨middle, front, back⟩⟩

/-- The pieces around one block. -/
theorem around {tile : Tile} (chain : Chain gap link prev start (before ++ tile :: after) stop) :
    Chain gap link prev start before tile.start ∧ tile.start + gap < tile.stop ∧
      link tile.start = ⟨tile.used, tile.stop, lastStart prev before⟩ ∧
      Chain gap link tile.start tile.stop after stop := by
  obtain ⟨middle, front, first, long, header, back⟩ := append_iff.mp chain
  subst first
  exact ⟨front, long, header, back⟩

theorem of_around {tile : Tile} (front : Chain gap link prev start before tile.start)
    (long : tile.start + gap < tile.stop)
    (header : link tile.start = ⟨tile.used, tile.stop, lastStart prev before⟩)
    (back : Chain gap link tile.start tile.stop after stop) :
    Chain gap link prev start (before ++ tile :: after) stop :=
  append_iff.mpr ⟨tile.start, front, rfl, long, header, back⟩

/-- Where the first block starts, or `stop` when there is none. -/
def firstStart (stop : Nat) : List Tile → Nat
  | [] => stop
  | tile :: _ => tile.start

theorem firstStart_eq (chain : Chain gap link prev start tiles stop) :
    firstStart stop tiles = start := by
  cases tiles with
  | nil => exact Eq.symm chain
  | cons tile rest => exact chain.1

theorem le (chain : Chain gap link prev start tiles stop) : start ≤ stop := by
  induction tiles generalizing prev start with
  | nil => exact Nat.le_of_eq chain
  | cons tile rest inductionHypothesis =>
      obtain ⟨_, long, _, back⟩ := chain
      have := inductionHypothesis back
      omega

theorem length_le (chain : Chain gap link prev start tiles stop) :
    start + tiles.length ≤ stop := by
  induction tiles generalizing prev start with
  | nil => exact Nat.le_of_eq chain
  | cons tile rest inductionHypothesis =>
      obtain ⟨_, long, _, back⟩ := chain
      have := inductionHypothesis back
      rw [List.length_cons]
      omega

theorem bounds (chain : Chain gap link prev start tiles stop) {tile : Tile}
    (member : tile ∈ tiles) :
    start ≤ tile.start ∧ tile.start + gap < tile.stop ∧ tile.stop ≤ stop := by
  obtain ⟨before, after, rfl⟩ := List.append_of_mem member
  obtain ⟨front, long, _, back⟩ := chain.around
  exact ⟨front.le, long, back.le⟩

theorem header (chain : Chain gap link prev start tiles stop) {tile : Tile}
    (member : tile ∈ tiles) :
    (link tile.start).used = tile.used ∧ (link tile.start).next = tile.stop := by
  obtain ⟨before, after, rfl⟩ := List.append_of_mem member
  obtain ⟨_, _, header, _⟩ := chain.around
  rw [header]
  exact ⟨rfl, rfl⟩

/-- The blocks follow one another without meeting. -/
theorem pairwise (chain : Chain gap link prev start tiles stop) :
    tiles.Pairwise fun first second => first.stop ≤ second.start := by
  induction tiles generalizing prev start with
  | nil => exact List.Pairwise.nil
  | cons tile rest inductionHypothesis =>
      obtain ⟨_, _, _, back⟩ := chain
      refine List.pairwise_cons.mpr ⟨fun later member => ?_, inductionHypothesis back⟩
      exact (back.bounds member).1

/-- Blocks on the two sides of one block. -/
theorem apart {tile : Tile} (chain : Chain gap link prev start (before ++ tile :: after) stop) :
    (∀ other ∈ before, other.stop ≤ tile.start) ∧ ∀ other ∈ after, tile.stop ≤ other.start := by
  obtain ⟨front, _, _, back⟩ := chain.around
  exact ⟨fun other member => (front.bounds member).2.2, fun other member => (back.bounds member).1⟩

/-- Where headers stand: where a block starts, or where the last one stops. -/
def Boundary (tiles : List Tile) (stop place : Nat) : Prop :=
  place = stop ∨ ∃ tile ∈ tiles, tile.start = place

theorem boundary_start {tile : Tile} (member : tile ∈ tiles) : Boundary tiles stop tile.start :=
  Or.inr ⟨tile, member, rfl⟩

/-- Headers stay where blocks still start there. -/
theorem boundary_mono {tiles' : List Tile} {place : Nat} (here : Boundary tiles stop place)
    (starts : ∀ tile ∈ tiles, ∃ other ∈ tiles', other.start = tile.start) :
    Boundary tiles' stop place := by
  rcases here with isEnd | ⟨tile, member, rfl⟩
  · exact Or.inl isEnd
  · exact Or.inr (starts tile member)

theorem boundary_stop (chain : Chain gap link prev start tiles stop) {tile : Tile}
    (member : tile ∈ tiles) : Boundary tiles stop tile.stop := by
  obtain ⟨before, after, rfl⟩ := List.append_of_mem member
  obtain ⟨_, _, _, back⟩ := chain.around
  cases after with
  | nil => exact Or.inl back
  | cons next rest =>
      exact Or.inr ⟨next, List.mem_append_right _ (List.mem_cons_of_mem _ List.mem_cons_self),
        back.1⟩

/-- No two headers meet. -/
theorem boundary_apart (chain : Chain gap link prev start tiles stop) {place other : Nat}
    (isPlace : Boundary tiles stop place) (isOther : Boundary tiles stop other) :
    place = other ∨ place + gap < other ∨ other + gap < place := by
  have before_stop {tile : Tile} (member : tile ∈ tiles) : tile.start + gap < stop := by
    have := chain.bounds member
    omega
  rcases isPlace with rfl | ⟨tile, member, rfl⟩
  · rcases isOther with rfl | ⟨tile, member, rfl⟩
    · exact Or.inl rfl
    · exact Or.inr (Or.inr (before_stop member))
  rcases isOther with rfl | ⟨second, otherMember, rfl⟩
  · exact Or.inr (Or.inl (before_stop member))
  obtain ⟨before, after, rfl⟩ := List.append_of_mem member
  obtain ⟨earlier, later⟩ := chain.apart
  have long := (chain.bounds member).2.1
  have otherLong := (chain.bounds otherMember).2.1
  rcases List.mem_append.mp otherMember with front | back
  · have := earlier second front
    exact Or.inr (Or.inr (by omega))
  rcases List.mem_cons.mp back with rfl | back
  · exact Or.inl rfl
  · have := later second back
    exact Or.inr (Or.inl (by omega))

/-- No header stands inside a block, but its own at the start. -/
theorem boundary_outside (chain : Chain gap link prev start tiles stop) {place : Nat}
    {tile : Tile} (isPlace : Boundary tiles stop place) (member : tile ∈ tiles) :
    place ≤ tile.start ∨ tile.stop ≤ place := by
  have bound := chain.bounds member
  rcases isPlace with rfl | ⟨other, otherMember, rfl⟩
  · exact Or.inr bound.2.2
  obtain ⟨before, after, rfl⟩ := List.append_of_mem member
  obtain ⟨earlier, later⟩ := chain.apart
  have := (chain.bounds otherMember).2.1
  rcases List.mem_append.mp otherMember with front | back
  · have := earlier other front
    exact Or.inl (by omega)
  rcases List.mem_cons.mp back with rfl | back
  · exact Or.inl (Nat.le_refl _)
  · exact Or.inr (later other back)

/-- Only the headers of the blocks count. -/
theorem congr (chain : Chain gap link prev start tiles stop)
    (same : ∀ tile ∈ tiles, link' tile.start = link tile.start) :
    Chain gap link' prev start tiles stop := by
  induction tiles generalizing prev start with
  | nil => exact chain
  | cons tile rest inductionHypothesis =>
      obtain ⟨first, long, header, back⟩ := chain
      obtain ⟨head, others⟩ := List.forall_mem_cons.mp same
      rw [first] at head
      exact ⟨first, long, head.trans header, inductionHypothesis back others⟩

/-- The first header is told of a new block before it. -/
theorem relink {prev' : Nat} (chain : Chain gap link prev start tiles stop)
    (head : start = stop ∨ link' start = { link start with prev := prev' })
    (same : ∀ tile ∈ tiles, tile.start ≠ start → link' tile.start = link tile.start) :
    Chain gap link' prev' start tiles stop := by
  cases tiles with
  | nil => exact chain
  | cons tile rest =>
      obtain ⟨first, long, header, back⟩ := chain
      have inside : start ≠ stop := by
        have := back.le
        omega
      rw [header] at head
      refine ⟨first, long, head.resolve_left inside, back.congr fun later member => ?_⟩
      have := (back.bounds member).1
      exact same later (List.mem_cons_of_mem _ member) (by omega)

/-- The other blocks start elsewhere. -/
theorem start_ne {tile other : Tile}
    (chain : Chain gap link prev start (before ++ tile :: after) stop)
    (member : other ∈ before ++ after) : other.start ≠ tile.start ∧
      Boundary (before ++ tile :: after) stop other.start := by
  have long := (chain.bounds (List.mem_append_right _ List.mem_cons_self)).2.1
  obtain ⟨earlier, later⟩ := chain.apart
  rcases List.mem_append.mp member with front | back
  · have here : other ∈ before ++ tile :: after := List.mem_append_left _ front
    have := earlier other front
    have := (chain.bounds here).2.1
    exact ⟨by omega, Or.inr ⟨other, here, rfl⟩⟩
  · have here : other ∈ before ++ tile :: after :=
      List.mem_append_right _ (List.mem_cons_of_mem _ back)
    have := later other back
    exact ⟨by omega, Or.inr ⟨other, here, rfl⟩⟩

/-- Two blocks never start at one place. -/
theorem eq_of_start {tile other : Tile} (chain : Chain gap link prev start tiles stop)
    (member : tile ∈ tiles) (otherMember : other ∈ tiles) (same : other.start = tile.start) :
    other = tile := by
  obtain ⟨before, after, rfl⟩ := List.append_of_mem member
  rcases List.mem_append.mp otherMember with front | back
  · exact absurd same (chain.start_ne (List.mem_append_left _ front)).1
  · rcases List.mem_cons.mp back with own | back
    · exact own
    · exact absurd same (chain.start_ne (List.mem_append_right _ back)).1

/-! ### Marking, splitting and merging -/

/-- A block changes hands. -/
theorem mark {tile : Tile} (chain : Chain gap link prev start (before ++ tile :: after) stop)
    (used : Bool) (own : link' tile.start = { link tile.start with used := used })
    (same : ∀ place, Boundary (before ++ tile :: after) stop place → place ≠ tile.start →
      link' place = link place) :
    Chain gap link' prev start (before ++ { tile with used := used } :: after) stop := by
  obtain ⟨front, long, header, back⟩ := chain.around
  rw [header] at own
  have kept : ∀ other ∈ before ++ after, link' other.start = link other.start := by
    intro other member
    obtain ⟨differs, boundary⟩ := chain.start_ne member
    exact same other.start boundary differs
  obtain ⟨frontSame, backSame⟩ := List.forall_mem_append.mp kept
  exact of_around (front.congr frontSame) long own (back.congr backSame)

/-- A block is cut in two; the second part is free. -/
theorem split {tile : Tile} {cut : Nat}
    (chain : Chain gap link prev start (before ++ tile :: after) stop)
    (first : tile.start + gap < cut) (second : cut + gap < tile.stop)
    (own : link' tile.start = { link tile.start with next := cut })
    (fresh : link' cut = ⟨false, tile.stop, tile.start⟩)
    (following : tile.stop = stop ∨ link' tile.stop = { link tile.stop with prev := cut })
    (same : ∀ place, Boundary (before ++ tile :: after) stop place → place ≠ tile.start →
      place ≠ tile.stop → link' place = link place) :
    Chain gap link' prev start
      (before ++ { tile with stop := cut } :: ⟨cut, tile.stop, false⟩ :: after) stop := by
  obtain ⟨front, long, header, back⟩ := chain.around
  rw [header] at own
  have kept : ∀ other ∈ before ++ after, other.start ≠ tile.stop →
      link' other.start = link other.start := by
    intro other member elsewhere
    obtain ⟨differs, boundary⟩ := chain.start_ne member
    exact same other.start boundary differs elsewhere
  obtain ⟨frontSame, backSame⟩ := List.forall_mem_append.mp kept
  have frontKept : Chain gap link' prev start before tile.start := by
    apply front.congr
    intro other member
    have := front.bounds member
    exact frontSame other member (by omega)
  exact of_around frontKept first own ⟨rfl, second, fresh, back.relink following backSame⟩

/-- Two blocks become one. -/
theorem merge {tile following : Tile}
    (chain : Chain gap link prev start (before ++ tile :: following :: after) stop)
    (own : link' tile.start = { link tile.start with next := following.stop })
    (next : link' following.stop = { link following.stop with prev := tile.start })
    (same : ∀ place, Boundary (before ++ tile :: following :: after) stop place →
      place ≠ tile.start → place ≠ following.stop → link' place = link place) :
    Chain gap link' prev start
      (before ++ { tile with stop := following.stop } :: after) stop := by
  obtain ⟨front, long, header, _, longer, _, back⟩ := chain.around
  rw [header] at own
  have kept : ∀ other ∈ before ++ after, other.start ≠ following.stop →
      link' other.start = link other.start := by
    intro other member elsewhere
    have inOld : other ∈ before ++ following :: after := by
      rcases List.mem_append.mp member with front | back
      · exact List.mem_append_left _ front
      · exact List.mem_append_right _ (List.mem_cons_of_mem _ back)
    obtain ⟨differs, boundary⟩ := chain.start_ne inOld
    exact same other.start boundary differs elsewhere
  obtain ⟨frontSame, backSame⟩ := List.forall_mem_append.mp kept
  have frontKept : Chain gap link' prev start before tile.start := by
    apply front.congr
    intro other member
    have := front.bounds member
    exact frontSame other member (by omega)
  exact of_around frontKept (show tile.start + gap < following.stop by omega) own
    (back.relink (Or.inr next) backSame)

end Chain

/-! ### No two free blocks side by side -/

/-- Of two neighbours one is used. -/
def Coalesced (tiles : List Tile) : Prop :=
  tiles.IsChain fun first second => first.used = true ∨ second.used = true

/-- Bytes in used blocks, headers included. -/
def usedBytes : List Tile → Nat
  | [] => 0
  | tile :: rest => (if tile.used then tile.stop - tile.start else 0) + usedBytes rest

theorem usedBytes_append (before after : List Tile) :
    usedBytes (before ++ after) = usedBytes before + usedBytes after := by
  induction before with
  | nil => exact (Nat.zero_add _).symm
  | cons tile rest inductionHypothesis =>
      rw [List.cons_append, usedBytes, usedBytes, inductionHypothesis, Nat.add_assoc]

theorem usedBytes_eq_sum (tiles : List Tile) :
    usedBytes tiles = ((tiles.filter Tile.used).map fun tile => tile.stop - tile.start).sum := by
  induction tiles with
  | nil => rfl
  | cons tile rest inductionHypothesis =>
      rw [usedBytes, inductionHypothesis]
      cases isUsed : tile.used <;> simp [isUsed]

/-- No two used blocks start at one place. -/
theorem Chain.used_starts {gap prev start stop : Nat} {link : Nat → Link} {tiles : List Tile}
    (chain : Chain gap link prev start tiles stop) :
    ((tiles.filter Tile.used).map Tile.start).Nodup := by
  apply List.pairwise_map.mpr
  apply (chain.pairwise.filter Tile.used).imp_of_mem
  intro first second member _ before
  have bound := chain.bounds (List.mem_filter.mp member).1
  omega

/-- When no block is used there is only one. -/
theorem Chain.single {gap prev start stop : Nat} {link : Nat → Link} {tiles : List Tile}
    (chain : Chain gap link prev start tiles stop) (coalesced : Coalesced tiles)
    (free : ∀ tile ∈ tiles, tile.used = false) (positive : start < stop) :
    tiles = [⟨start, stop, false⟩] := by
  cases tiles with
  | nil => exact absurd chain (Nat.ne_of_lt positive)
  | cons tile rest =>
      obtain ⟨begins, _, _, back⟩ := chain
      have own := free tile List.mem_cons_self
      cases rest with
      | nil =>
          have ends : tile.stop = stop := back
          rw [← begins, ← ends, ← own]
      | cons next others =>
          have neighbour := free next (List.mem_cons_of_mem _ List.mem_cons_self)
          rcases (List.isChain_cons.mp coalesced).1 next rfl with isUsed | isUsed
          · exact absurd (own.symm.trans isUsed) Bool.false_ne_true
          · exact absurd (neighbour.symm.trans isUsed) Bool.false_ne_true

theorem Chain.usedBytes_le {gap prev start stop : Nat} {link : Nat → Link} {tiles : List Tile}
    (chain : Chain gap link prev start tiles stop) : start + usedBytes tiles ≤ stop := by
  induction tiles generalizing prev start with
  | nil => exact Nat.le_of_eq chain
  | cons tile rest inductionHypothesis =>
      obtain ⟨begins, _, _, back⟩ := chain
      have := inductionHypothesis back
      rw [usedBytes]
      split <;> omega

end RttIctl.Lib
