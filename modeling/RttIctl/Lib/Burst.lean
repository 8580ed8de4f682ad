import RttIctl.Lib.ShiftRegister

/-!
Owns bit strings fed one bit at a time into a linear feedback shift register,
and the detection of bursts: when the polynomial has a constant term, two
strings that differ only within one register width leave different registers.

It does not own how a program lays its bits out in words.
-/

namespace RttIctl.Lib

/-- Some bit is set, and all set bits lie within `span` consecutive places. -/
def IsBurst (span : Nat) (bits : List Bool) : Prop :=
  true ∈ bits ∧
    ∃ first, ∀ position, bits[position]? = some true → first ≤ position ∧ position < first + span

/-- A burst is clear before and after a short string with a set bit. -/
theorem IsBurst.split {span : Nat} {bits : List Bool} (burst : IsBurst span bits) :
    ∃ before within after, within.length ≤ span ∧ true ∈ within ∧
      bits = List.replicate before false ++ within ++ List.replicate after false := by
  obtain ⟨set, first, confined⟩ := burst
  have clear : ∀ part : List Bool, true ∉ part → part = List.replicate part.length false := by
    intro part quiet
    apply List.eq_replicate_iff.mpr
    refine ⟨rfl, fun bit member => ?_⟩
    cases bit with
    | false => rfl
    | true => exact absurd member quiet
  have parts : bits = bits.take first ++ (bits.drop first).take span ++
      (bits.drop first).drop span := by
    rw [List.append_assoc, List.take_append_drop, List.take_append_drop]
  have quietBefore : true ∉ bits.take first := by
    intro member
    obtain ⟨position, found⟩ := List.mem_iff_getElem?.mp member
    rw [List.getElem?_take] at found
    split at found
    · have := (confined position found).1
      omega
    · exact absurd found (Option.some_ne_none true).symm
  have quietAfter : true ∉ (bits.drop first).drop span := by
    intro member
    obtain ⟨position, found⟩ := List.mem_iff_getElem?.mp member
    rw [List.drop_drop, List.getElem?_drop] at found
    have := (confined _ found).2
    omega
  have within : true ∈ (bits.drop first).take span := by
    rw [parts, List.mem_append, List.mem_append] at set
    exact (set.resolve_right quietAfter).resolve_left quietBefore
  rw [clear _ quietBefore, clear _ quietAfter] at parts
  exact ⟨_, _, _, List.length_take_le span _, within, parts⟩

namespace ShiftRegister

variable {width : Nat} (poly : BitVec width)

/-- Feed a bit string, first bit first. -/
def feedAll (register : BitVec width) (bits : List Bool) : BitVec width :=
  bits.foldl (feed poly) register

/-- The bits of a string at the top of a register, first bit on top. -/
def packTop : List Bool → BitVec width
  | [] => BitVec.ofNat width 0
  | bit :: rest =>
      (if bit then BitVec.twoPow width (width - 1) else BitVec.ofNat width 0) |||
        (packTop rest >>> 1)

/-! ### Linearity of a run -/

theorem feed_xor (left right : BitVec width) (bit bit' : Bool) :
    feed poly left bit ^^^ feed poly right bit' = feed poly (left ^^^ right) (bit ^^ bit') := by
  unfold feed
  rw [shift_xor]
  cases bit <;> cases bit'
  · rfl
  · simp only [Bool.false_eq_true, if_false, if_true, Bool.false_xor]
    ac_rfl
  · simp only [Bool.false_eq_true, if_false, if_true, Bool.xor_false]
    ac_rfl
  · simp only [if_true, Bool.xor_self, Bool.false_eq_true, if_false]
    rw [BitVec.xor_comm (shift poly right) poly, BitVec.xor_assoc, ← BitVec.xor_assoc poly poly,
      BitVec.xor_self, BitVec.zero_xor]

/-- Two runs differ by the run of the difference. -/
theorem feedAll_xor {bits bits' : List Bool} (sameLength : bits.length = bits'.length)
    (left right : BitVec width) :
    feedAll poly left bits ^^^ feedAll poly right bits' =
      feedAll poly (left ^^^ right) (List.zipWith (· ^^ ·) bits bits') := by
  induction bits generalizing bits' left right with
  | nil =>
      rw [List.length_nil, eq_comm, List.length_eq_zero_iff] at sameLength
      rw [sameLength]
      rfl
  | cons bit rest inductionHypothesis =>
      cases bits' with
      | nil => exact absurd sameLength (Nat.succ_ne_zero rest.length)
      | cons bit' rest' =>
          have tails : rest.length = rest'.length := Nat.succ.inj sameLength
          have next := inductionHypothesis tails (feed poly left bit) (feed poly right bit')
          rw [feed_xor] at next
          exact next

/-! ### Steps that lose nothing -/

theorem shift_zero : shift poly (BitVec.ofNat width 0) = BitVec.ofNat width 0 := by
  simp [shift]

theorem shifts_zero (count : Nat) :
    shifts poly count (BitVec.ofNat width 0) = BitVec.ofNat width 0 := by
  induction count with
  | zero => rfl
  | succ count inductionHypothesis => rw [shifts, shift_zero, inductionHypothesis]

/-- With a constant term in the polynomial the bit fed back stays visible at the
bottom, so a shift of a register that is not zero is not zero. -/
theorem shift_ne_zero (odd : poly.getLsbD 0 = true) {register : BitVec width}
    (nonzero : register ≠ BitVec.ofNat width 0) :
    shift poly register ≠ BitVec.ofNat width 0 := by
  intro vanished
  have bottom := congrArg (fun value => value.getLsbD 0) vanished
  unfold shift at vanished bottom
  cases top : register.msb with
  | true =>
      rw [top, if_pos rfl] at bottom
      simp [odd] at bottom
  | false =>
      rw [top, if_neg Bool.false_ne_true] at vanished
      apply nonzero
      apply BitVec.eq_of_getLsbD_eq
      intro i inside
      rw [BitVec.getLsbD_zero]
      by_cases last : i + 1 < width
      · have moved := congrArg (fun value => value.getLsbD (i + 1)) vanished
        rw [BitVec.getLsbD_shiftLeft, BitVec.getLsbD_zero, Nat.add_sub_cancel] at moved
        simpa only [last, decide_true, Bool.true_and, Nat.not_lt_zero, Nat.lt_one_iff,
          Nat.add_one_ne_zero, decide_false, Bool.not_false] using moved
      · rw [BitVec.msb_eq_getLsbD_last] at top
        rw [show i = width - 1 by omega]
        exact top

theorem shifts_ne_zero (odd : poly.getLsbD 0 = true) (count : Nat) {register : BitVec width}
    (nonzero : register ≠ BitVec.ofNat width 0) :
    shifts poly count register ≠ BitVec.ofNat width 0 := by
  induction count generalizing register with
  | zero => exact nonzero
  | succ count inductionHypothesis => exact inductionHypothesis (shift_ne_zero poly odd nonzero)

/-- Clear bits are feedback shifts. -/
theorem feedAll_replicate_false (register : BitVec width) (count : Nat) :
    feedAll poly register (List.replicate count false) = shifts poly count register := by
  induction count generalizing register with
  | zero => rfl
  | succ count inductionHypothesis =>
      rw [List.replicate_succ, feedAll, List.foldl_cons]
      exact inductionHypothesis (shift poly register)

/-! ### Strings no longer than the register -/

theorem packTop_cons_msb (bit : Bool) {rest : List Bool} (room : 0 < width) :
    (packTop (bit :: rest) : BitVec width).msb = bit := by
  rw [packTop, BitVec.msb_or, BitVec.msb_ushiftRight]
  cases bit with
  | false => simp
  | true =>
      have last : width - 1 < width := by omega
      simp [BitVec.msb_eq_getLsbD_last, last]

/-- The places below a packed string are clear. -/
theorem getLsbD_packTop (bits : List Bool) {i : Nat} (below : i + bits.length < width) :
    (packTop bits : BitVec width).getLsbD i = false := by
  induction bits generalizing i with
  | nil => exact BitVec.getLsbD_zero
  | cons bit rest inductionHypothesis =>
      rw [List.length_cons] at below
      have notTop : width - 1 ≠ i := by omega
      have lower := inductionHypothesis (i := 1 + i) (by omega)
      rw [packTop, BitVec.getLsbD_or, BitVec.getLsbD_ushiftRight, lower, Bool.or_false]
      cases bit with
      | false => exact BitVec.getLsbD_zero
      | true =>
          rw [if_pos rfl, BitVec.getLsbD_twoPow, decide_eq_false notTop, Bool.and_false]

/-- Shifting the first bit out leaves the rest packed. -/
theorem packTop_cons_shiftLeft (bit : Bool) {rest : List Bool} (fits : rest.length < width) :
    (packTop (bit :: rest) : BitVec width) <<< 1 = packTop rest := by
  apply BitVec.eq_of_getLsbD_eq
  intro i inside
  cases i with
  | zero =>
      rw [getLsbD_packTop rest (by omega)]
      simp
  | succ i =>
      have notTop : width - 1 ≠ i := by omega
      have first :
          (if bit then BitVec.twoPow width (width - 1)
            else BitVec.ofNat width 0).getLsbD i = false := by
        cases bit with
        | false => exact BitVec.getLsbD_zero
        | true =>
            rw [if_pos rfl, BitVec.getLsbD_twoPow, decide_eq_false notTop, Bool.and_false]
      rw [BitVec.getLsbD_shiftLeft, packTop, Nat.add_sub_cancel, BitVec.getLsbD_or, first,
        Bool.false_or, BitVec.getLsbD_ushiftRight, Nat.add_comm 1 i]
      simp [inside]

/-- Feeding a string no longer than the register is adding it on top before as
many shifts. -/
theorem feedAll_eq_shifts {bits : List Bool} (fits : bits.length ≤ width)
    (register : BitVec width) :
    feedAll poly register bits = shifts poly bits.length (register ^^^ packTop bits) := by
  induction bits generalizing register with
  | nil => exact (BitVec.xor_zero).symm
  | cons bit rest inductionHypothesis =>
      rw [List.length_cons] at fits
      have next := inductionHypothesis (by omega) (feed poly register bit)
      rw [List.length_cons, shifts_succ_xor, packTop_cons_msb bit (by omega),
        packTop_cons_shiftLeft bit (by omega), ← next]
      rfl

theorem packTop_ne_zero {bits : List Bool} (fits : bits.length ≤ width) (set : true ∈ bits) :
    (packTop bits : BitVec width) ≠ BitVec.ofNat width 0 := by
  induction bits with
  | nil => exact absurd set List.not_mem_nil
  | cons bit rest inductionHypothesis =>
      rw [List.length_cons] at fits
      intro zero
      cases bit with
      | true =>
          have room : 0 < width := by omega
          have top : (packTop (true :: rest) : BitVec width).msb = true :=
            packTop_cons_msb true room
          rw [zero] at top
          simp at top
      | false =>
          have later : true ∈ rest := by simpa using set
          apply inductionHypothesis (by omega) later
          rw [← packTop_cons_shiftLeft false (by omega), zero]
          exact BitVec.zero_shiftLeft 1

/-! ### Bursts -/

/-- A burst no longer than the register is never lost. -/
theorem feedAll_burst_ne_zero (odd : poly.getLsbD 0 = true) {bits : List Bool}
    (burst : IsBurst width bits) :
    feedAll poly (BitVec.ofNat width 0) bits ≠ BitVec.ofNat width 0 := by
  obtain ⟨before, within, after, fits, set, rfl⟩ := burst.split
  rw [feedAll, List.foldl_append, List.foldl_append, ← feedAll, ← feedAll, ← feedAll,
    feedAll_replicate_false, feedAll_replicate_false, shifts_zero, feedAll_eq_shifts poly fits,
    BitVec.zero_xor]
  exact shifts_ne_zero poly odd _ (shifts_ne_zero poly odd _ (packTop_ne_zero fits set))

/-- Two strings of one length whose difference is a burst leave different
registers. -/
theorem feedAll_ne_of_burst (odd : poly.getLsbD 0 = true) {bits bits' : List Bool}
    (sameLength : bits.length = bits'.length)
    (burst : IsBurst width (List.zipWith (· ^^ ·) bits bits')) (register : BitVec width) :
    feedAll poly register bits ≠ feedAll poly register bits' := by
  intro same
  apply feedAll_burst_ne_zero poly odd burst
  rw [← BitVec.xor_self (x := register), ← feedAll_xor poly sameLength, same, BitVec.xor_self,
    BitVec.xor_self]

end ShiftRegister

end RttIctl.Lib
