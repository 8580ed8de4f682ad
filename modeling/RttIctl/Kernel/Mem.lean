import RttIctl.Lib.Field
import RttIctl.Lib.BlockChain

/-!
Owns the system heap of `mem.c` byte by byte: the headers in the heap memory,
`rt_system_heap_init`, `rt_malloc`, `rt_calloc`, `rt_realloc` and `rt_free` with
`plug_holes`, and which bytes and header fields one write changes.

It does not own the semaphore around the calls or the hooks. A failing assertion
does not return.
-/

namespace RttIctl.Kernel

open Lib Lib.PagedMemory

/-! ### The heap -/

def heapMagic : Nat := 0x1ea0

/-- `SIZEOF_STRUCT_MEM`. -/
def sizeofStructMem : Nat := 12

/-- `MIN_SIZE_ALIGNED`. -/
def minSizeAligned : Nat := 12

/-- `RT_ALIGN(size, RT_ALIGN_SIZE)` in 32 bits. -/
def rtAlign (size : Nat) : Nat :=
  (size + 3) % 2 ^ 32 / 4 * 4

/-- A difference of two `rt_size_t` values. -/
def sizeSub (value less : Nat) : Nat :=
  (value + 2 ^ 32 - less) % 2 ^ 32

theorem sizeSub_of_le {value less : Nat} (le : less ≤ value) (fits : value < 2 ^ 32) :
    sizeSub value less = value - less := by
  unfold sizeSub
  omega

/-! The fields of `struct heap_mem`. -/

def memMagic : Field := ⟨0, 2⟩
def memUsed : Field := ⟨2, 2⟩
def memNext : Field := ⟨4, 4⟩
def memPrev : Field := ⟨8, 4⟩

/-- The memory from `heap_ptr` on, and the variables beside it. Pointers are
offsets from `heap_ptr`; the heap leaves room for two more headers below 2^32, so
that only differences can wrap. -/
structure Heap where
  bytes : Nat → UInt8
  memSizeAligned : Nat
  lfree : Nat
  usedMem : Nat
  maxMem : Nat

namespace Heap

def heapEnd (heap : Heap) : Nat := heap.memSizeAligned + sizeofStructMem

def magicAt (heap : Heap) (mem : Nat) : Nat := memMagic.get heap.bytes mem
def usedAt (heap : Heap) (mem : Nat) : Nat := memUsed.get heap.bytes mem
def nextAt (heap : Heap) (mem : Nat) : Nat := memNext.get heap.bytes mem
def prevAt (heap : Heap) (mem : Nat) : Nat := memPrev.get heap.bytes mem

def setMagic (heap : Heap) (mem value : Nat) : Heap :=
  { heap with bytes := memMagic.set heap.bytes mem value }

def setUsed (heap : Heap) (mem value : Nat) : Heap :=
  { heap with bytes := memUsed.set heap.bytes mem value }

def setNext (heap : Heap) (mem value : Nat) : Heap :=
  { heap with bytes := memNext.set heap.bytes mem value }

def setPrev (heap : Heap) (mem value : Nat) : Heap :=
  { heap with bytes := memPrev.set heap.bytes mem value }

/-! ### The functions -/

/-- `rt_system_heap_init`. No heap when there is no room for two headers. -/
def rtSystemHeapInit (memory : Nat → UInt8) (beginAddr endAddr : Nat) : Option Heap :=
  let beginAlign := rtAlign beginAddr
  let endAlign := endAddr / 4 * 4
  if 2 * sizeofStructMem < endAlign ∧ beginAlign ≤ endAlign - 2 * sizeofStructMem then
    let memSizeAligned := endAlign - beginAlign - 2 * sizeofStructMem
    let heap : Heap := ⟨memory, memSizeAligned, 0, 0, 0⟩
    let heap := (((heap.setMagic 0 heapMagic).setNext 0 heap.heapEnd).setPrev 0 0).setUsed 0 0
    let heap := (((heap.setMagic heap.heapEnd heapMagic).setUsed heap.heapEnd 1).setNext
      heap.heapEnd heap.heapEnd).setPrev heap.heapEnd heap.heapEnd
    some { heap with lfree := 0 }
  else none

/-- In `plug_holes`: the block at `low` takes over the one behind it. -/
def absorb (heap : Heap) (low high : Nat) : Heap :=
  let heap := { heap with lfree := if heap.lfree = high then low else heap.lfree }
  let heap := heap.setNext low (heap.nextAt high)
  heap.setPrev (heap.nextAt high) low

/-- The first half of `plug_holes`. -/
def plugForward (heap : Heap) (mem : Nat) : Heap :=
  let nmem := heap.nextAt mem
  if mem ≠ nmem ∧ heap.usedAt nmem = 0 ∧ nmem ≠ heap.heapEnd then heap.absorb mem nmem else heap

/-- The second half of `plug_holes`. -/
def plugBackward (heap : Heap) (mem : Nat) : Heap :=
  let pmem := heap.prevAt mem
  if pmem ≠ mem ∧ heap.usedAt pmem = 0 then heap.absorb pmem mem else heap

def plugHoles (heap : Heap) (mem : Nat) : Option Heap :=
  if mem < heap.heapEnd ∧ heap.usedAt mem = 0 then
    some ((heap.plugForward mem).plugBackward mem)
  else none

/-- The loop of `rt_malloc` from `ptr` on: the block it stops at, if any. Every
pass goes on to a later block, so as many passes as bytes are enough. -/
def search (heap : Heap) (size : Nat) : Nat → Nat → Option (Option Nat)
  | 0, _ => none
  | fuel + 1, ptr =>
      if ptr < sizeSub heap.memSizeAligned size then
        if heap.usedAt ptr = 0 ∧ size ≤ sizeSub (heap.nextAt ptr) (ptr + sizeofStructMem) then
          some (some ptr)
        else search heap size fuel (heap.nextAt ptr)
      else some none

/-- The loop that moves `lfree` over used blocks. -/
def skipUsed (heap : Heap) : Nat → Nat → Option Nat
  | 0, _ => none
  | fuel + 1, lfree =>
      if heap.usedAt lfree ≠ 0 ∧ lfree ≠ heap.heapEnd then
        skipUsed heap fuel (heap.nextAt lfree)
      else some lfree

def countUsed (heap : Heap) (bytes : Nat) : Heap :=
  { heap with usedMem := heap.usedMem + bytes, maxMem := max heap.maxMem (heap.usedMem + bytes) }

/-- The header of a new free block. -/
def freeHeader (heap : Heap) (mem next prev : Nat) : Heap :=
  (((heap.setMagic mem heapMagic).setUsed mem 0).setNext mem next).setPrev mem prev

/-- Cut a header in behind `size` bytes of the block at `ptr`; the part after it
is free. -/
def cutBehind (heap : Heap) (ptr size : Nat) : Heap :=
  let ptr2 := ptr + sizeofStructMem + size
  let heap := heap.freeHeader ptr2 (heap.nextAt ptr) ptr
  let heap := heap.setNext ptr ptr2
  if heap.nextAt ptr2 ≠ heap.heapEnd then heap.setPrev (heap.nextAt ptr2) ptr2 else heap

/-- Give out `size` bytes of the free block at `ptr`. -/
def carve (heap : Heap) (ptr size : Nat) : Heap :=
  let heap :=
    if size + sizeofStructMem + minSizeAligned ≤
        sizeSub (heap.nextAt ptr) (ptr + sizeofStructMem) then
      ((heap.cutBehind ptr size).setUsed ptr 1).countUsed (size + sizeofStructMem)
    else (heap.setUsed ptr 1).countUsed (sizeSub (heap.nextAt ptr) ptr)
  heap.setMagic ptr heapMagic

/-- After a block was given out: move `lfree` when it was the lowest free one. -/
def advance (heap : Heap) (ptr : Nat) : Option Heap :=
  if ptr = heap.lfree then
    match heap.skipUsed (heap.heapEnd + 1) heap.lfree with
    | some lfree =>
        if lfree = heap.heapEnd ∨ heap.usedAt lfree = 0 then some { heap with lfree := lfree }
        else none
    | none => none
  else some heap

/-- No result means that the call does not return. -/
def rtMalloc (heap : Heap) (size : Nat) : Option (Heap × Option Nat) :=
  if size = 0 then some (heap, none)
  else
    let size := rtAlign size
    if heap.memSizeAligned < size then some (heap, none)
    else
      let size := max size minSizeAligned
      match heap.search size (heap.heapEnd + 1) heap.lfree with
      | none => none
      | some none => some (heap, none)
      | some (some ptr) =>
          match (heap.carve ptr size).advance ptr with
          | none => none
          | some heap =>
              if ptr + sizeofStructMem + size ≤ heap.heapEnd ∧
                  (ptr + sizeofStructMem) % 4 = 0 ∧ ptr % 4 = 0 then
                some (heap, some (ptr + sizeofStructMem))
              else none

def rtFree (heap : Heap) (rmem : Option Nat) : Option Heap :=
  match rmem with
  | none => some heap
  | some rmem =>
      if rmem % 4 = 0 ∧ rmem < heap.heapEnd then
        let mem := rmem - sizeofStructMem
        if heap.usedAt mem ≠ 0 ∧ heap.magicAt mem = heapMagic then
          let heap := (heap.setUsed mem 0).setMagic mem heapMagic
          let heap := { heap with
            lfree := if mem < heap.lfree then mem else heap.lfree
            usedMem := sizeSub heap.usedMem (sizeSub (heap.nextAt mem) mem) }
          heap.plugHoles mem
        else none
      else none

/-- `rt_memcpy` inside the heap. -/
def rtMemcpy (heap : Heap) (dst src count : Nat) : Heap :=
  { heap with bytes := store heap.bytes dst (window heap.bytes src count) }

def rtRealloc (heap : Heap) (rmem : Option Nat) (newsize : Nat) : Option (Heap × Option Nat) :=
  let newsize := rtAlign newsize
  if heap.memSizeAligned < newsize then some (heap, none)
  else if newsize = 0 then (heap.rtFree rmem).map fun heap => (heap, none)
  else
    match rmem with
    | none => heap.rtMalloc newsize
    | some rmem =>
        if heap.heapEnd ≤ rmem then some (heap, some rmem)
        else
          let ptr := rmem - sizeofStructMem
          let size := sizeSub (sizeSub (heap.nextAt ptr) ptr) sizeofStructMem
          if size = newsize then some (heap, some rmem)
          else if newsize + sizeofStructMem + minSizeAligned < size then
            let heap := { heap with usedMem := sizeSub heap.usedMem (size - newsize) }
            let ptr2 := ptr + sizeofStructMem + newsize
            ((heap.cutBehind ptr newsize).plugHoles ptr2).map fun heap => (heap, some rmem)
          else
            match heap.rtMalloc newsize with
            | none => none
            | some (heap, none) => some (heap, none)
            | some (heap, some nmem) =>
                let heap := heap.rtMemcpy nmem rmem (if size < newsize then size else newsize)
                (heap.rtFree (some rmem)).map fun heap => (heap, some nmem)

/-- `rt_calloc`; the product wraps at 32 bits. -/
def rtCalloc (heap : Heap) (count size : Nat) : Option (Heap × Option Nat) :=
  match heap.rtMalloc (count * size % 2 ^ 32) with
  | some (heap, some p) =>
      some ({ heap with bytes := store heap.bytes p (List.replicate (count * size % 2 ^ 32) 0) },
        some p)
  | other => other

/-! ### Headers -/

/-- The header at an offset as a link of the chain. -/
def link (heap : Heap) (mem : Nat) : Link :=
  ⟨heap.usedAt mem ≠ 0, heap.nextAt mem, heap.prevAt mem⟩

variable {heap heap' : Heap} {mem other value : Nat}

/-! A setter changes its own field of its own header. -/

section Setters

theorem link_setNext (heap : Heap) (mem : Nat) (fits : value < 2 ^ 32) :
    (heap.setNext mem value).link mem = { heap.link mem with next := value } := by
  have written : (heap.setNext mem value).nextAt mem = value := Field.get_set heap.bytes mem fits
  have usedKept : (heap.setNext mem value).usedAt mem = heap.usedAt mem :=
    Field.get_set_of_disjoint (Or.inl (show mem + 2 + 2 ≤ mem + 4 by omega))
  have prevKept : (heap.setNext mem value).prevAt mem = heap.prevAt mem :=
    Field.get_set_of_disjoint (Or.inr (show mem + 4 + 4 ≤ mem + 8 by omega))
  rw [link, written, usedKept, prevKept]
  rfl

theorem link_setPrev (heap : Heap) (mem : Nat) (fits : value < 2 ^ 32) :
    (heap.setPrev mem value).link mem = { heap.link mem with prev := value } := by
  have written : (heap.setPrev mem value).prevAt mem = value := Field.get_set heap.bytes mem fits
  have usedKept : (heap.setPrev mem value).usedAt mem = heap.usedAt mem :=
    Field.get_set_of_disjoint (Or.inl (show mem + 2 + 2 ≤ mem + 8 by omega))
  have nextKept : (heap.setPrev mem value).nextAt mem = heap.nextAt mem :=
    Field.get_set_of_disjoint (Or.inl (show mem + 4 + 4 ≤ mem + 8 by omega))
  rw [link, written, usedKept, nextKept]
  rfl

theorem link_setUsed (heap : Heap) (mem : Nat) (fits : value < 2 ^ 16) :
    (heap.setUsed mem value).link mem = { heap.link mem with used := value ≠ 0 } := by
  have written : (heap.setUsed mem value).usedAt mem = value := Field.get_set heap.bytes mem fits
  have nextKept : (heap.setUsed mem value).nextAt mem = heap.nextAt mem :=
    Field.get_set_of_disjoint (Or.inr (show mem + 2 + 2 ≤ mem + 4 by omega))
  have prevKept : (heap.setUsed mem value).prevAt mem = heap.prevAt mem :=
    Field.get_set_of_disjoint (Or.inr (show mem + 2 + 2 ≤ mem + 8 by omega))
  rw [link, written, nextKept, prevKept]
  rfl

theorem link_setMagic (heap : Heap) (mem value : Nat) :
    (heap.setMagic mem value).link mem = heap.link mem := by
  have usedKept : (heap.setMagic mem value).usedAt mem = heap.usedAt mem :=
    Field.get_set_of_disjoint (Or.inr (show mem + 0 + 2 ≤ mem + 2 by omega))
  have nextKept : (heap.setMagic mem value).nextAt mem = heap.nextAt mem :=
    Field.get_set_of_disjoint (Or.inr (show mem + 0 + 2 ≤ mem + 4 by omega))
  have prevKept : (heap.setMagic mem value).prevAt mem = heap.prevAt mem :=
    Field.get_set_of_disjoint (Or.inr (show mem + 0 + 2 ≤ mem + 8 by omega))
  rw [link, usedKept, nextKept, prevKept]
  rfl

theorem magicAt_setMagic (heap : Heap) (mem : Nat) :
    (heap.setMagic mem heapMagic).magicAt mem = heapMagic :=
  Field.get_set heap.bytes mem (by decide)

theorem magicAt_setUsed (heap : Heap) (mem value : Nat) :
    (heap.setUsed mem value).magicAt mem = heap.magicAt mem :=
  Field.get_set_of_disjoint (Or.inl (show mem + 0 + 2 ≤ mem + 2 by omega))

theorem magicAt_setNext (heap : Heap) (mem value : Nat) :
    (heap.setNext mem value).magicAt mem = heap.magicAt mem :=
  Field.get_set_of_disjoint (Or.inl (show mem + 0 + 2 ≤ mem + 4 by omega))

theorem magicAt_setPrev (heap : Heap) (mem value : Nat) :
    (heap.setPrev mem value).magicAt mem = heap.magicAt mem :=
  Field.get_set_of_disjoint (Or.inl (show mem + 0 + 2 ≤ mem + 8 by omega))

end Setters

/-! ### What is left alone -/

/-- The header at `mem` meets none at the given offsets. -/
def Apart (offsets : List Nat) (mem : Nat) : Prop :=
  ∀ other ∈ offsets, mem + sizeofStructMem ≤ other ∨ other + sizeofStructMem ≤ mem

/-- The header at `mem` meets none at the given offsets but itself. -/
def Separate (offsets : List Nat) (mem : Nat) : Prop :=
  ∀ other ∈ offsets, other = mem ∨ mem + sizeofStructMem ≤ other ∨ other + sizeofStructMem ≤ mem

/-- Only bytes of the headers at the given offsets differ, and no magic number is
lost. -/
structure Touches (heap heap' : Heap) (offsets : List Nat) : Prop where
  size : heap'.memSizeAligned = heap.memSizeAligned
  bytes : ∀ address, (∀ mem ∈ offsets, address < mem ∨ mem + sizeofStructMem ≤ address) →
    heap'.bytes address = heap.bytes address
  magic : ∀ mem, Separate offsets mem → heap.magicAt mem = heapMagic →
    heap'.magicAt mem = heapMagic

namespace Touches

variable {offsets : List Nat}

theorem refl (heap : Heap) (offsets : List Nat) : Touches heap heap offsets :=
  ⟨rfl, fun _ _ => rfl, fun _ _ was => was⟩

theorem trans {heap'' : Heap} (first : Touches heap heap' offsets)
    (second : Touches heap' heap'' offsets) : Touches heap heap'' offsets where
  size := second.size.trans first.size
  bytes address outside := (second.bytes address outside).trans (first.bytes address outside)
  magic mem separate was := second.magic mem separate (first.magic mem separate was)

theorem mono {more : List Nat} (touches : Touches heap heap' offsets) (subset : offsets ⊆ more) :
    Touches heap heap' more where
  size := touches.size
  bytes address outside := touches.bytes address fun mem member => outside mem (subset member)
  magic mem separate was :=
    touches.magic mem (fun other member => separate other (subset member)) was

theorem get (touches : Touches heap heap' offsets) (apart : Apart offsets mem) {field : Field}
    (inside : field.offset + field.size ≤ sizeofStructMem) :
    field.get heap'.bytes mem = field.get heap.bytes mem := by
  apply Field.get_congr
  intro address low high
  apply touches.bytes
  intro other member
  have := apart other member
  omega

theorem link (touches : Touches heap heap' offsets) (apart : Apart offsets mem) :
    heap'.link mem = heap.link mem := by
  have used : heap'.usedAt mem = heap.usedAt mem := touches.get apart (by decide)
  have next : heap'.nextAt mem = heap.nextAt mem := touches.get apart (by decide)
  have prev : heap'.prevAt mem = heap.prevAt mem := touches.get apart (by decide)
  rw [Heap.link, used, next, prev]
  rfl

theorem heapEnd (touches : Touches heap heap' offsets) : heap'.heapEnd = heap.heapEnd := by
  rw [Heap.heapEnd, touches.size]
  rfl

end Touches

theorem touches_set {field : Field} (inside : field.offset + field.size ≤ sizeofStructMem)
    (kept : heap.magicAt mem = heapMagic →
      memMagic.get (field.set heap.bytes mem value) mem = heapMagic) :
    Touches heap { heap with bytes := field.set heap.bytes mem value } [mem] where
  size := rfl
  bytes address outside := by
    have := outside mem List.mem_cons_self
    exact Field.set_of_outside (by omega)
  magic other separate was := by
    rcases separate mem List.mem_cons_self with rfl | apart
    · exact kept was
    · have magicInside : memMagic.offset + memMagic.size ≤ sizeofStructMem := by decide
      exact (Field.get_set_of_disjoint (by omega)).trans was

theorem touches_setMagic (heap : Heap) (mem : Nat) :
    Touches heap (heap.setMagic mem heapMagic) [mem] :=
  touches_set (by decide) fun _ => heap.magicAt_setMagic mem

theorem touches_setUsed (heap : Heap) (mem value : Nat) :
    Touches heap (heap.setUsed mem value) [mem] :=
  touches_set (by decide) (heap.magicAt_setUsed mem value).trans

theorem touches_setNext (heap : Heap) (mem value : Nat) :
    Touches heap (heap.setNext mem value) [mem] :=
  touches_set (by decide) (heap.magicAt_setNext mem value).trans

theorem touches_setPrev (heap : Heap) (mem value : Nat) :
    Touches heap (heap.setPrev mem value) [mem] :=
  touches_set (by decide) (heap.magicAt_setPrev mem value).trans

end Heap

end RttIctl.Kernel
