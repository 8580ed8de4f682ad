import RttIctl.Lib.PagedMemory

/-!
Owns `rt_ringbuffer`: two indices with a mirror bit each over a pool of bytes,
`rt_ringbuffer_put` and `rt_ringbuffer_get` with their two copies at the end of
the pool, and their meaning as a queue of bytes.

It does not own the locks and the waiting of the devices built on it.
-/

namespace RttIctl.Drivers

open Lib.PagedMemory

/-- `struct rt_ringbuffer`. In one mirror the writer is ahead of the reader, in
different mirrors behind it. -/
structure Ringbuffer where
  bufferPtr : Nat → UInt8
  readMirror : Bool
  readIndex : Nat
  writeMirror : Bool
  writeIndex : Nat
  bufferSize : Nat
  read_lt : readIndex < bufferSize
  write_lt : writeIndex < bufferSize
  ahead : readMirror = writeMirror → readIndex ≤ writeIndex
  behind : readMirror ≠ writeMirror → writeIndex ≤ readIndex

namespace Ringbuffer

/-- `rt_ringbuffer_init` on a pool of `size` bytes. -/
def init (pool : Nat → UInt8) (size : Nat) (positive : 0 < size) : Ringbuffer where
  bufferPtr := pool
  readMirror := false
  readIndex := 0
  writeMirror := false
  writeIndex := 0
  bufferSize := size
  read_lt := positive
  write_lt := positive
  ahead := fun _ => Nat.le_refl 0
  behind := fun _ => Nat.le_refl 0

/-- `rt_ringbuffer_data_len`. -/
def dataLen (rb : Ringbuffer) : Nat :=
  if rb.readIndex = rb.writeIndex then
    if rb.readMirror = rb.writeMirror then 0 else rb.bufferSize
  else if rb.readIndex < rb.writeIndex then rb.writeIndex - rb.readIndex
  else rb.bufferSize - (rb.readIndex - rb.writeIndex)

/-- `rt_ringbuffer_space_len`. -/
def spaceLen (rb : Ringbuffer) : Nat := rb.bufferSize - rb.dataLen

/-- The bytes waiting to be read, oldest first. -/
def contents (rb : Ringbuffer) : List UInt8 :=
  if rb.readMirror = rb.writeMirror then
    window rb.bufferPtr rb.readIndex (rb.writeIndex - rb.readIndex)
  else
    window rb.bufferPtr rb.readIndex (rb.bufferSize - rb.readIndex) ++
      window rb.bufferPtr 0 rb.writeIndex

theorem dataLen_of_same {rb : Ringbuffer} (same : rb.readMirror = rb.writeMirror) :
    rb.dataLen = rb.writeIndex - rb.readIndex := by
  have := rb.ahead same
  unfold dataLen
  simp only [same, if_true]
  split
  · omega
  · rw [if_pos (by omega)]

theorem dataLen_of_differ {rb : Ringbuffer} (differ : rb.readMirror ≠ rb.writeMirror) :
    rb.dataLen = rb.bufferSize - rb.readIndex + rb.writeIndex := by
  have := rb.behind differ
  have := rb.read_lt
  unfold dataLen
  simp only [differ, if_false]
  split
  · omega
  · rw [if_neg (by omega)]
    omega

theorem contents_of_same {rb : Ringbuffer} (same : rb.readMirror = rb.writeMirror) :
    rb.contents = window rb.bufferPtr rb.readIndex (rb.writeIndex - rb.readIndex) :=
  if_pos same

theorem contents_of_differ {rb : Ringbuffer} (differ : rb.readMirror ≠ rb.writeMirror) :
    rb.contents = window rb.bufferPtr rb.readIndex (rb.bufferSize - rb.readIndex) ++
      window rb.bufferPtr 0 rb.writeIndex :=
  if_neg differ

theorem length_contents (rb : Ringbuffer) : rb.contents.length = rb.dataLen := by
  by_cases same : rb.readMirror = rb.writeMirror
  · rw [contents_of_same same, length_window, dataLen_of_same same]
  · rw [contents_of_differ same, List.length_append, length_window, length_window,
      dataLen_of_differ same]

theorem dataLen_le (rb : Ringbuffer) : rb.dataLen ≤ rb.bufferSize := by
  have := rb.write_lt
  by_cases same : rb.readMirror = rb.writeMirror
  · rw [dataLen_of_same same]
    omega
  · rw [dataLen_of_differ same]
    have := rb.behind same
    have := rb.read_lt
    omega

theorem spaceLen_of_same {rb : Ringbuffer} (same : rb.readMirror = rb.writeMirror) :
    rb.spaceLen = rb.bufferSize - (rb.writeIndex - rb.readIndex) := by
  rw [spaceLen, dataLen_of_same same]

theorem spaceLen_of_differ {rb : Ringbuffer} (differ : rb.readMirror ≠ rb.writeMirror) :
    rb.spaceLen = rb.readIndex - rb.writeIndex := by
  rw [spaceLen, dataLen_of_differ differ]
  have := rb.behind differ
  have := rb.read_lt
  omega

/-! ### rt_ringbuffer_put -/

/-- The copies of `rt_ringbuffer_put`, for bytes that have room. -/
def copyIn (rb : Ringbuffer) (data : List UInt8) (room : data.length ≤ rb.spaceLen) : Ringbuffer :=
  if fits : data.length < rb.bufferSize - rb.writeIndex then
    { rb with
      bufferPtr := store rb.bufferPtr rb.writeIndex data
      writeIndex := rb.writeIndex + data.length
      write_lt := by omega
      ahead := fun same => by
        have := rb.ahead same
        omega
      behind := fun differ => by
        have := rb.behind differ
        rw [spaceLen_of_differ differ] at room
        omega }
  else
    { rb with
      bufferPtr := store (store rb.bufferPtr rb.writeIndex
        (data.take (rb.bufferSize - rb.writeIndex))) 0
        (data.drop (rb.bufferSize - rb.writeIndex))
      writeMirror := !rb.writeMirror
      writeIndex := data.length - (rb.bufferSize - rb.writeIndex)
      write_lt := by
        have := rb.write_lt
        have : rb.spaceLen ≤ rb.bufferSize := Nat.sub_le _ _
        omega
      ahead := fun flipped => by
        have differ : rb.readMirror ≠ rb.writeMirror := by
          rw [flipped]
          simp
        have := rb.behind differ
        have := rb.read_lt
        rw [spaceLen_of_differ differ] at room
        omega
      behind := fun flipped => by
        have same : rb.readMirror = rb.writeMirror := by
          by_contra differ
          exact flipped (Bool.eq_not_of_ne differ)
        have := rb.ahead same
        have := rb.write_lt
        rw [spaceLen_of_same same] at room
        omega }

/-- `rt_ringbuffer_put`: as much of the data as has room, and how much that is. -/
def put (rb : Ringbuffer) (ptr : List UInt8) : Nat × Ringbuffer :=
  if rb.spaceLen = 0 then (0, rb)
  else
    ((ptr.take rb.spaceLen).length,
      rb.copyIn (ptr.take rb.spaceLen) (by
        rw [List.length_take]
        exact Nat.min_le_left _ _))

/-- Data that ends before the pool does follows the bytes already there. -/
theorem contents_copyIn_of_fits {rb : Ringbuffer} {data : List UInt8}
    (room : data.length ≤ rb.spaceLen) (fits : data.length < rb.bufferSize - rb.writeIndex) :
    (rb.copyIn data room).contents = rb.contents ++ data := by
  rw [copyIn, dif_pos fits]
  by_cases same : rb.readMirror = rb.writeMirror
  · rw [contents_of_same same]
    refine (contents_of_same (by exact same)).trans ?_
    exact window_store_append rb.bufferPtr (rb.ahead same) data
  · have order := rb.behind same
    have readBound := rb.read_lt
    rw [spaceLen_of_differ same] at room
    have upper : window (store rb.bufferPtr rb.writeIndex data) rb.readIndex
        (rb.bufferSize - rb.readIndex) =
          window rb.bufferPtr rb.readIndex (rb.bufferSize - rb.readIndex) :=
      window_store_of_disjoint (Or.inr (by omega))
    have lower := window_store_append rb.bufferPtr (Nat.zero_le rb.writeIndex) data
    rw [Nat.sub_zero, Nat.sub_zero] at lower
    rw [contents_of_differ same, List.append_assoc, ← lower, ← upper]
    exact contents_of_differ (by exact same)

/-- Longer data ends the pool and starts it again, below the reader. -/
theorem contents_copyIn_of_wraps {rb : Ringbuffer} {data : List UInt8}
    (room : data.length ≤ rb.spaceLen) (long : ¬ data.length < rb.bufferSize - rb.writeIndex) :
    (rb.copyIn data room).contents = rb.contents ++ data := by
  have writeBound := rb.write_lt
  have same : rb.readMirror = rb.writeMirror := by
    apply Decidable.byContradiction
    intro differ
    have order := rb.behind differ
    have readBound := rb.read_lt
    rw [spaceLen_of_differ differ] at room
    omega
  have flipped : rb.readMirror ≠ !rb.writeMirror := by
    rw [same]
    simp
  have order := rb.ahead same
  rw [spaceLen_of_same same] at room
  have headLength : rb.writeIndex + (data.take (rb.bufferSize - rb.writeIndex)).length =
      rb.bufferSize := by
    rw [List.length_take]
    omega
  have tailLength : (data.drop (rb.bufferSize - rb.writeIndex)).length =
      data.length - (rb.bufferSize - rb.writeIndex) := List.length_drop
  have upper := window_store_append rb.bufferPtr order
    (data.take (rb.bufferSize - rb.writeIndex))
  rw [headLength] at upper
  have lower := window_store (store rb.bufferPtr rb.writeIndex
    (data.take (rb.bufferSize - rb.writeIndex))) 0 (data.drop (rb.bufferSize - rb.writeIndex))
  rw [tailLength] at lower
  rw [copyIn, dif_neg long, contents_of_same same]
  refine (contents_of_differ (by exact flipped)).trans ?_
  dsimp only
  rw [lower, window_store_of_disjoint (Or.inr (by omega)), upper, List.append_assoc,
    List.take_append_drop]

theorem contents_copyIn {rb : Ringbuffer} {data : List UInt8}
    (room : data.length ≤ rb.spaceLen) :
    (rb.copyIn data room).contents = rb.contents ++ data := by
  by_cases fits : data.length < rb.bufferSize - rb.writeIndex
  · exact contents_copyIn_of_fits room fits
  · exact contents_copyIn_of_wraps room fits

theorem put_fst (rb : Ringbuffer) (ptr : List UInt8) :
    (rb.put ptr).1 = min rb.spaceLen ptr.length := by
  unfold put
  split
  · next full => rw [full, Nat.zero_min]
  · exact List.length_take

/-- The queue after a `put`: the data is appended as far as there is room. -/
theorem contents_put (rb : Ringbuffer) (ptr : List UInt8) :
    (rb.put ptr).2.contents = rb.contents ++ ptr.take (rb.put ptr).1 := by
  rw [put_fst]
  unfold put
  split
  · next full => rw [full, Nat.zero_min, List.take_zero, List.append_nil]
  · rw [contents_copyIn, List.take_eq_take_min]

/-! ### rt_ringbuffer_get -/

/-- The copies of `rt_ringbuffer_get`, for bytes that are there. -/
def copyOut (rb : Ringbuffer) (length : Nat) (there : length ≤ rb.dataLen) :
    List UInt8 × Ringbuffer :=
  if fits : length < rb.bufferSize - rb.readIndex then
    (window rb.bufferPtr rb.readIndex length,
      { rb with
        readIndex := rb.readIndex + length
        read_lt := by omega
        ahead := fun same => by
          have := rb.ahead same
          rw [dataLen_of_same same] at there
          omega
        behind := fun differ => by
          have := rb.behind differ
          omega })
  else
    (window rb.bufferPtr rb.readIndex (rb.bufferSize - rb.readIndex) ++
        window rb.bufferPtr 0 (length - (rb.bufferSize - rb.readIndex)),
      { rb with
        readMirror := !rb.readMirror
        readIndex := length - (rb.bufferSize - rb.readIndex)
        read_lt := by
          have := rb.read_lt
          have := rb.dataLen_le
          omega
        ahead := fun flipped => by
          have differ : rb.readMirror ≠ rb.writeMirror := by
            rw [← flipped]
            simp
          have := rb.behind differ
          rw [dataLen_of_differ differ] at there
          omega
        behind := fun flipped => by
          have same : rb.readMirror = rb.writeMirror := Bool.not_not_eq.mp flipped
          have := rb.ahead same
          have := rb.write_lt
          rw [dataLen_of_same same] at there
          omega })

/-- `rt_ringbuffer_get`: the oldest bytes, no more than asked for. -/
def get (rb : Ringbuffer) (length : Nat) : List UInt8 × Ringbuffer :=
  if rb.dataLen = 0 then ([], rb)
  else rb.copyOut (min length rb.dataLen) (Nat.min_le_right _ _)

/-- Bytes that end before the pool does are cut off the first window. -/
theorem contents_copyOut_of_fits {rb : Ringbuffer} {length : Nat} (there : length ≤ rb.dataLen)
    (fits : length < rb.bufferSize - rb.readIndex) :
    (rb.copyOut length there).1 ++ (rb.copyOut length there).2.contents = rb.contents := by
  have cut := @window_split _ rb.bufferPtr rb.readIndex (rb.readIndex + length)
  rw [copyOut, dif_pos fits]
  by_cases same : rb.readMirror = rb.writeMirror
  · have order := rb.ahead same
    rw [dataLen_of_same same] at there
    rw [contents_of_same same, cut (Nat.le_add_right _ _) (by omega), Nat.add_sub_cancel_left]
    exact congrArg _ (contents_of_same (by exact same))
  · rw [contents_of_differ same, cut (Nat.le_add_right _ _) (by omega), Nat.add_sub_cancel_left,
      List.append_assoc]
    exact congrArg _ (contents_of_differ (by exact same))

/-- Longer ones are the whole first window and the start of the second. -/
theorem contents_copyOut_of_wraps {rb : Ringbuffer} {length : Nat} (there : length ≤ rb.dataLen)
    (long : ¬ length < rb.bufferSize - rb.readIndex) :
    (rb.copyOut length there).1 ++ (rb.copyOut length there).2.contents = rb.contents := by
  have readBound := rb.read_lt
  have writeBound := rb.write_lt
  have differ : rb.readMirror ≠ rb.writeMirror := by
    intro same
    have order := rb.ahead same
    rw [dataLen_of_same same] at there
    omega
  have flipped : (!rb.readMirror) = rb.writeMirror := (Bool.eq_not_of_ne (Ne.symm differ)).symm
  rw [dataLen_of_differ differ] at there
  have lower := window_split rb.bufferPtr
    (Nat.zero_le (length - (rb.bufferSize - rb.readIndex)))
    (show length - (rb.bufferSize - rb.readIndex) ≤ rb.writeIndex by omega)
  rw [Nat.sub_zero, Nat.sub_zero] at lower
  rw [copyOut, dif_neg long, contents_of_differ differ, lower, ← List.append_assoc]
  exact congrArg _ (contents_of_same (by exact flipped))

/-- What is copied out and what stays are together the bytes that were there. -/
theorem contents_copyOut {rb : Ringbuffer} {length : Nat} (there : length ≤ rb.dataLen) :
    (rb.copyOut length there).1 ++ (rb.copyOut length there).2.contents = rb.contents := by
  by_cases fits : length < rb.bufferSize - rb.readIndex
  · exact contents_copyOut_of_fits there fits
  · exact contents_copyOut_of_wraps there fits

theorem length_copyOut {rb : Ringbuffer} {length : Nat} (there : length ≤ rb.dataLen) :
    (rb.copyOut length there).1.length = length := by
  unfold copyOut
  split
  · exact length_window _ _ _
  · rw [List.length_append, length_window, length_window]
    omega

/-- The queue after a `get`: the oldest bytes are gone, and they are what was
returned. -/
theorem contents_get (rb : Ringbuffer) (length : Nat) :
    (rb.get length).1 = rb.contents.take length ∧
      (rb.get length).2.contents = rb.contents.drop length := by
  have size := rb.length_contents
  unfold get
  split
  · next empty =>
      rw [empty, List.length_eq_zero_iff] at size
      rw [size, List.take_nil, List.drop_nil]
      exact ⟨rfl, rfl⟩
  · have copied := length_copyOut (Nat.min_le_right length rb.dataLen)
    have both := contents_copyOut (Nat.min_le_right length rb.dataLen)
    generalize rb.copyOut (min length rb.dataLen) _ = result at copied both ⊢
    have total : result.1.length + result.2.contents.length = rb.dataLen := by
      rw [← size, ← both, List.length_append]
    rw [← both]
    by_cases enough : length ≤ rb.dataLen
    · rw [Nat.min_eq_left enough] at copied
      rw [List.take_left' copied, List.drop_left' copied]
      exact ⟨rfl, rfl⟩
    · have nothing : result.2.contents = [] := by
        apply List.length_eq_zero_iff.mp
        omega
      rw [nothing, List.append_nil, List.take_of_length_le (by omega),
        List.drop_of_length_le (by omega)]
      exact ⟨rfl, rfl⟩

end Ringbuffer

end RttIctl.Drivers
