import RttIctl.Drivers.Ringbuffer
import RttIctl.Lib.Ring

/-!
Owns `rt_ringbuffer_put_force`, which is to discard the oldest bytes of a ring buffer
for new ones, and the exact condition under which it does.

It does not own `rt_ringbuffer_put` and `rt_ringbuffer_get`.
-/

namespace RttIctl.Drivers.Ringbuffer

open Lib Lib.PagedMemory

/-- The last bytes of a block. -/
def newest (n : Nat) (bytes : List UInt8) : List UInt8 :=
  if bytes.length > n then bytes.drop (bytes.length - n) else bytes

theorem length_newest (n : Nat) (bytes : List UInt8) :
    (newest n bytes).length = min bytes.length n := by
  unfold newest
  split
  · rw [List.length_drop]
    omega
  · omega

/-- `rt_ringbuffer_put_force`. The part of the block that the buffer can hold is copied
behind the write index; when it has no room, reading goes on from there. -/
def putForce (rb : Ringbuffer) (ptr : List UInt8) : Nat × Ringbuffer :=
  let block := newest rb.bufferSize ptr
  let atEnd := rb.bufferSize - rb.writeIndex
  if room : block.length ≤ rb.spaceLen then (block.length, rb.copyIn block room)
  else if fits : block.length < atEnd then
    (block.length,
      { rb with
        bufferPtr := store rb.bufferPtr rb.writeIndex block
        writeIndex := rb.writeIndex + block.length
        readIndex := rb.writeIndex + block.length
        read_lt := by omega
        write_lt := by omega
        ahead := fun _ => Nat.le_refl _
        behind := fun _ => Nat.le_refl _ })
  else
    have inside : block.length - atEnd < rb.bufferSize := by
      have writeBound := rb.write_lt
      have bound : block.length ≤ rb.bufferSize :=
        Nat.le_trans (Nat.le_of_eq (length_newest rb.bufferSize ptr)) (Nat.min_le_right _ _)
      show block.length - (rb.bufferSize - rb.writeIndex) < rb.bufferSize
      omega
    (block.length,
      { rb with
        bufferPtr := store (store rb.bufferPtr rb.writeIndex (block.take atEnd)) 0
          (block.drop atEnd)
        writeMirror := !rb.writeMirror
        writeIndex := block.length - atEnd
        readMirror := !rb.readMirror
        readIndex := block.length - atEnd
        read_lt := inside
        write_lt := inside
        ahead := fun _ => Nat.le_refl _
        behind := fun _ => Nat.le_refl _ })

/-! ### The contents round the end -/

variable {pool : Nat → UInt8} {size start count : Nat}

/-- Past the end of the pool reading goes on at 0. -/
theorem ringContents_round (past : size ≤ start + count) (inside : start < size)
    (fits : count ≤ size) :
    ringContents pool size start count =
      window pool start (size - start) ++ window pool 0 (start + count - size) := by
  have parts : count = size - start + (start + count - size) := by omega
  have restart : start + (size - start) = size := by omega
  have again := ringContents_mod pool size size (start + count - size)
  rw [Nat.mod_self] at again
  have cut := ringContents_add pool size start (size - start) (start + count - size)
  rw [← parts, restart, ← again,
    @ringContents_eq_window _ _ _ start (size - start) (by omega),
    @ringContents_eq_window _ _ _ 0 (start + count - size) (by omega)] at cut
  exact cut

theorem contents_eq_ring (rb : Ringbuffer) :
    rb.contents = ringContents rb.bufferPtr rb.bufferSize rb.readIndex rb.dataLen := by
  have readBound := rb.read_lt
  have writeBound := rb.write_lt
  by_cases same : rb.readMirror = rb.writeMirror
  · have order := rb.ahead same
    rw [contents_of_same same, dataLen_of_same same]
    exact (ringContents_eq_window (by omega)).symm
  · have order := rb.behind same
    have last : rb.readIndex + (rb.bufferSize - rb.readIndex + rb.writeIndex) - rb.bufferSize =
        rb.writeIndex := by omega
    rw [contents_of_differ same, dataLen_of_differ same,
      ringContents_round (by omega) readBound (by omega), last]

/-- The write index is as far behind the read index as there are bytes. -/
theorem write_behind (rb : Ringbuffer) :
    (rb.readIndex + rb.dataLen) % rb.bufferSize = rb.writeIndex := by
  have readBound := rb.read_lt
  have writeBound := rb.write_lt
  by_cases same : rb.readMirror = rb.writeMirror
  · have order := rb.ahead same
    rw [dataLen_of_same same, mod_of_lt_two (by omega), if_pos (by omega)]
    omega
  · have order := rb.behind same
    rw [dataLen_of_differ same, mod_of_lt_two (by omega), if_neg (by omega)]
    omega

/-- What is read after a block was copied in two parts, wherever reading starts. -/
theorem ringContents_two_parts {slot : Nat} {block : List UInt8}
    (behind : (start + count) % size = slot) (inside : slot < size)
    (long : ¬ block.length < size - slot) (room : count + block.length ≤ size) :
    ringContents (store (store pool slot (block.take (size - slot))) 0
        (block.drop (size - slot))) size start (count + block.length) =
      ringContents pool size start count ++ block := by
  have first : (block.take (size - slot)).length = size - slot :=
    List.length_take_of_le (by omega)
  have rest : (block.drop (size - slot)).length = block.length - (size - slot) :=
    List.length_drop
  have upper := @ringContents_store _ pool _ start count _ (block.take (size - slot)) behind
    (by omega) (by omega)
  have restart : (start + (count + (size - slot))) % size = 0 := by
    rw [← Nat.add_assoc, Nat.add_mod, behind, Nat.add_mod_mod,
      Nat.add_sub_cancel' (Nat.le_of_lt inside), Nat.mod_self]
  have lower := @ringContents_store _ (store pool slot (block.take (size - slot))) _ start
    (count + (size - slot)) _ (block.drop (size - slot)) restart (by omega) (by omega)
  have total : count + (size - slot) + (block.length - (size - slot)) = count + block.length := by
    omega
  rw [first] at upper
  rw [rest, total, upper, List.append_assoc, List.take_append_drop] at lower
  exact lower

/-! ### Old bytes given up for new ones -/

/-- A block as long as the buffer or longer leaves nothing of what was there. -/
theorem newest_append (n : Nat) (old ptr : List UInt8) :
    newest n (old ++ ptr) = old.drop (old.length + (newest n ptr).length - n) ++ newest n ptr := by
  rw [length_newest]
  unfold newest
  rw [List.length_append]
  by_cases long : ptr.length > n
  · have none : old.length ≤ old.length + min ptr.length n - n := by omega
    have cut : old.length + ptr.length - n = old.length + (ptr.length - n) := by omega
    rw [if_pos (by omega), if_pos long, List.drop_of_length_le none, cut, ← List.drop_drop,
      List.drop_left, List.nil_append]
  · rw [if_neg long]
    split
    · have cut : old.length + min ptr.length n - n = old.length + ptr.length - n := by omega
      rw [cut, List.drop_append_of_le_length (by omega)]
    · have cut : old.length + min ptr.length n - n = 0 := by omega
      rw [cut, List.drop_zero]

/-- A buffer whose indices meet is empty or full. -/
theorem contents_of_met {rb : Ringbuffer} (met : rb.readIndex = rb.writeIndex) :
    rb.contents = if rb.readMirror = rb.writeMirror then []
      else ringContents rb.bufferPtr rb.bufferSize rb.readIndex rb.bufferSize := by
  rw [contents_eq_ring, dataLen, if_pos met]
  by_cases same : rb.readMirror = rb.writeMirror
  · rw [if_pos same, if_pos same]
    rfl
  · rw [if_neg same, if_neg same]

/-- A block without room leaves the newest bytes round the buffer, from where it
ends. -/
theorem ring_after_overflow (rb : Ringbuffer) (ptr : List UInt8) {memory : Nat → UInt8}
    {stop : Nat} (without : ¬ (newest rb.bufferSize ptr).length ≤ rb.spaceLen)
    (stops : stop = (rb.writeIndex + (newest rb.bufferSize ptr).length) % rb.bufferSize)
    (copied : ∀ start count, (start + count) % rb.bufferSize = rb.writeIndex →
      count + (newest rb.bufferSize ptr).length ≤ rb.bufferSize →
      ringContents memory rb.bufferSize start (count + (newest rb.bufferSize ptr).length) =
        ringContents rb.bufferPtr rb.bufferSize start count ++ newest rb.bufferSize ptr) :
    ringContents memory rb.bufferSize stop rb.bufferSize =
      newest rb.bufferSize (rb.contents ++ ptr) := by
  have len := rb.length_contents
  have le := rb.dataLen_le
  have short := length_newest rb.bufferSize ptr
  have behind := rb.write_behind
  rw [spaceLen] at without
  rw [newest_append, len]
  generalize newest rb.bufferSize ptr = block at *
  generalize isGone : rb.dataLen + block.length - rb.bufferSize = gone
  have kept : rb.dataLen = gone + (rb.bufferSize - block.length) := by omega
  have isStop : stop = (rb.readIndex + gone) % rb.bufferSize := by
    have around : rb.readIndex + rb.dataLen + block.length =
        rb.readIndex + gone + rb.bufferSize := by omega
    rw [stops, ← behind, Nat.mod_add_mod, around, Nat.add_mod_right]
  have whole : rb.bufferSize - block.length + block.length = rb.bufferSize := by omega
  have read := copied (rb.readIndex + gone) (rb.bufferSize - block.length)
    (by rw [Nat.add_assoc, ← kept, behind]) (by omega)
  rw [whole] at read
  rw [isStop, ringContents_mod, read, contents_eq_ring, kept, ringContents_add,
    List.drop_left' (length_ringContents _ _ _ _)]

/-- What `rt_ringbuffer_put_force` leaves: the newest bytes, except that a block without
room leaves nothing when both indices are in the same mirror before it. -/
theorem contents_putForce (rb : Ringbuffer) (ptr : List UInt8) :
    (rb.putForce ptr).2.contents =
      if rb.spaceLen < min ptr.length rb.bufferSize ∧ rb.readMirror = rb.writeMirror then []
      else newest rb.bufferSize (rb.contents ++ ptr) := by
  have writeBound := rb.write_lt
  have len := rb.length_contents
  have le := rb.dataLen_le
  have short := length_newest rb.bufferSize ptr
  rw [← short]
  unfold putForce
  dsimp only
  by_cases room : (newest rb.bufferSize ptr).length ≤ rb.spaceLen
  · have all : rb.contents.length + (newest rb.bufferSize ptr).length - rb.bufferSize = 0 := by
      rw [spaceLen] at room
      omega
    have apart : ¬ (rb.spaceLen < (newest rb.bufferSize ptr).length ∧
        rb.readMirror = rb.writeMirror) := by omega
    rw [dif_pos room, if_neg apart, newest_append, all, List.drop_zero]
    exact contents_copyIn room
  · have without : rb.spaceLen < (newest rb.bufferSize ptr).length := Nat.lt_of_not_le room
    have condition : (rb.spaceLen < (newest rb.bufferSize ptr).length ∧
        rb.readMirror = rb.writeMirror) = (rb.readMirror = rb.writeMirror) :=
      propext ⟨And.right, And.intro without⟩
    simp only [condition]
    rw [dif_neg room]
    by_cases fits : (newest rb.bufferSize ptr).length < rb.bufferSize - rb.writeIndex
    · rw [dif_pos fits, contents_of_met rfl]
      dsimp only
      rw [ring_after_overflow rb ptr room (Nat.mod_eq_of_lt (by omega)).symm
        fun _ _ behind enough => ringContents_store behind (by omega) enough]
    · rw [dif_neg fits, contents_of_met rfl]
      dsimp only
      have stops : (newest rb.bufferSize ptr).length - (rb.bufferSize - rb.writeIndex) =
          (rb.writeIndex + (newest rb.bufferSize ptr).length) % rb.bufferSize := by
        rw [mod_of_lt_two (by omega), if_neg (by omega)]
        omega
      rw [ring_after_overflow rb ptr room stops
        fun _ _ behind enough => ringContents_two_parts behind writeBound fits enough]
      by_cases same : rb.readMirror = rb.writeMirror
      · rw [if_pos same, if_pos (congrArg not same)]
      · rw [if_neg same, if_neg (mt Bool.not_inj same)]

/-- `rt_ringbuffer_put_force` keeps the newest bytes exactly when the block has room or
unread bytes go round the end of the buffer; a block without room while they do not
leaves the buffer empty. -/
theorem putForce_keeps_newest_iff (rb : Ringbuffer) (ptr : List UInt8) :
    ((rb.putForce ptr).2.contents = newest rb.bufferSize (rb.contents ++ ptr) ↔
      min ptr.length rb.bufferSize ≤ rb.spaceLen ∨ rb.readMirror ≠ rb.writeMirror) ∧
    (rb.spaceLen < min ptr.length rb.bufferSize → rb.readMirror = rb.writeMirror →
      (rb.putForce ptr).2.contents = []) := by
  rw [contents_putForce]
  refine ⟨⟨fun kept => ?_, ?_⟩, fun without same => if_pos ⟨without, same⟩⟩
  · by_contra neither
    obtain ⟨without, same⟩ := not_or.mp neither
    have both : rb.spaceLen < min ptr.length rb.bufferSize ∧ rb.readMirror = rb.writeMirror :=
      And.intro (Nat.lt_of_not_le without) (Decidable.of_not_not same)
    rw [if_pos both] at kept
    have lengths := congrArg List.length kept
    rw [length_newest, List.length_append, List.length_nil] at lengths
    have := rb.read_lt
    omega
  · rintro (room | differ)
    · exact if_neg fun both => absurd both.1 (Nat.not_lt_of_le room)
    · exact if_neg fun both => differ both.2

/-- Two bytes forced into a buffer with one place left: all five are lost. -/
theorem putForce_loses_all :
    (((init (fun _ => 0) 4 (by decide)).put [1, 2, 3]).2.putForce [4, 5]).2.contents = [] :=
  (putForce_keeps_newest_iff ((init (fun _ => 0) 4 (by decide)).put [1, 2, 3]).2 [4, 5]).2
    (by decide) (by decide)

end RttIctl.Drivers.Ringbuffer
