import RttIctl.Bsp.Lamp

/-!
Owns the arrays of output and LED objects against their count `m_num`: which
operations stay inside `m_pPins` and `m_pLed` for every index, and when a second
`init` of an LED object leaves the count and both arrays in step.

It does not own what the operations do to the lamps.
-/

namespace RttIctl.Bsp

open Lib

/-! ### Operations and the index they name -/

/-- The operations that only look. -/
inductive DoQuery
  | getDO (idx : UInt8)
  | getRtDO (idx : UInt8)
  | showDO
  deriving DecidableEq, Repr

/-- The answer, a level or the cached word. No result means an access outside
the pin array. -/
def DoQuery.answer (self : CCtrlGpioDO) : DoQuery → Option (PinLevel ⊕ BitVec 16)
  | .getDO idx => some (.inl (self.getDO idx))
  | .getRtDO idx => (self.getRtDO idx).map Sum.inl
  | .showDO => some (.inr self.showDO)

/-- Only `getRtDO` uses its index on the array, with no test of it. -/
def DoQuery.InRange (num : UInt8) : DoQuery → Prop
  | .getRtDO idx => idx < num
  | _ => True

/-- The index names no output: it is not below `m_num` and not 0xFF for every
output of the sequence. -/
def DoCall.NamesNone (num : UInt8) (call : DoCall) : Prop :=
  ¬ call.Broadcast ∧ num ≤ call.idx

def LedCall.idx : LedCall → UInt8
  | .setDO idx _ => idx
  | .setRtDO idx _ => idx
  | .toggleDO idx => idx
  | .blinkOn idx _ _ _ => idx
  | .blinkOff idx => idx
  | .on idx => idx
  | .off idx => idx
  | .toggle idx => idx
  | .outputDO idx _ => idx

def LedCall.Broadcast : LedCall → Prop
  | .setDO idx _ => idx = 0xFF
  | .outputDO idx _ => idx = 0xFF
  | _ => False

def LedCall.NamesNone (num : UInt8) (call : LedCall) : Prop :=
  ¬ call.Broadcast ∧ num ≤ call.idx

/-- The call stays inside the arrays, and changes nothing when its index names
no output. -/
def DoCall.Safe (object : CCtrlGpioDO) (call : DoCall) : Prop :=
  ∃ after, call.run object = some after ∧ (call.NamesNone object.mNum → after = object)

def LedCall.Safe (object : CCtrlLED) (call : LedCall) : Prop :=
  ∃ after, call.run object = some after ∧ (call.NamesNone object.mNum → after = object)

/-! ### Outputs -/

/-- `m_pPins` has exactly `m_num` entries. -/
def DoSized (object : CCtrlGpioDO) : Prop :=
  object.mPPins.Holds object.mNum.toNat

/-- The operation returns and the arrays keep their sizes. -/
def DoStays (object : CCtrlGpioDO) (result : Option CCtrlGpioDO) : Prop :=
  ∃ after, result = some after ∧ DoSized after ∧ after.mNum = object.mNum

section Outputs

variable {object : CCtrlGpioDO}

theorem DoSized.stays_self (sized : DoSized object) : DoStays object (some object) :=
  ⟨object, rfl, sized, rfl⟩

theorem DoSized.drive_stays (sized : DoSized object) {idx : UInt8} (inside : idx < object.mNum)
    (level : PinLevel) : DoStays object (object.drive idx level) := by
  obtain ⟨pin, found⟩ := sized.get?_of_lt (UInt8.lt_iff_toNat_lt.mp inside)
  exact ⟨_, CCtrlGpioDO.drive_of_found found level, sized, rfl⟩

theorem DoSized.setRtDO_stays (sized : DoSized object) (idx state : UInt8) :
    DoStays object (object.setRtDO idx state) := by
  rw [CCtrlGpioDO.setRtDO_eq]
  split
  · exact sized.stays_self
  · next inside => exact sized.drive_stays (UInt8.not_le.mp inside) _

theorem DoSized.toggleDO_stays (sized : DoSized object) (idx : UInt8) :
    DoStays object (object.toggleDO idx) := by
  unfold CCtrlGpioDO.toggleDO
  split
  · exact sized.stays_self
  · next inside =>
      have named := UInt8.not_le.mp inside
      obtain ⟨pin, found⟩ := sized.get?_of_lt (UInt8.lt_iff_toNat_lt.mp named)
      rw [found, Option.bind_eq_bind, Option.bind_some]
      split
      · exact sized.drive_stays named .low
      · exact sized.drive_stays named .high

theorem DoSized.setDO_stays (sized : DoSized object) (idx state : UInt8) :
    DoStays object (some (object.setDO idx state)) := by
  by_cases all : idx = 0xFF
  · rw [all, object.setDO_all]
    exact ⟨_, rfl, sized, rfl⟩
  by_cases inside : idx < object.mNum
  · rw [object.setDO_of_lt all inside]
    exact ⟨_, rfl, sized, rfl⟩
  · rw [object.setDO_of_not_lt all inside]
    exact sized.stays_self

theorem DoSized.outputPins_stays (sized : DoSized object) {left : Nat} {first : UInt8}
    (inside : first.toNat + left ≤ object.mNum.toNat) :
    DoStays object (object.outputPins left first) := by
  induction left generalizing object first with
  | zero => exact sized.stays_self
  | succ left inductionHypothesis =>
      obtain ⟨pin, found⟩ := sized.get?_of_lt (show first.toNat < object.mNum.toNat by omega)
      have few := object.mNum.toNat_lt
      have next : (first + 1).toNat = first.toNat + 1 := toNat_succ_of_lt (by omega)
      rw [CCtrlGpioDO.outputPins, found, Option.bind_eq_bind, Option.bind_some]
      have rest : (first + 1).toNat + left ≤ object.mNum.toNat := by omega
      have written : DoSized
          { object with gpio := object.gpio.rtPinWrite pin (object.getDO first) } := sized
      exact inductionHypothesis written rest

theorem DoSized.outputDO_stays (sized : DoSized object) (idx : UInt8) :
    DoStays object (object.outputDO idx) := by
  by_cases all : idx = 0xFF
  · rw [all, object.outputDO_all]
    exact sized.outputPins_stays (Nat.le_of_eq (Nat.zero_add _))
  · rw [object.outputDO_of_single all]
    split
    · exact sized.stays_self
    · next inside =>
        exact sized.outputPins_stays (UInt8.lt_iff_toNat_lt.mp (UInt8.not_le.mp inside))

theorem DoSized.run_stays (sized : DoSized object) (call : DoCall) :
    DoStays object (call.run object) := by
  cases call with
  | setDO idx state => exact sized.setDO_stays idx state
  | setRtDO idx state => exact sized.setRtDO_stays idx state
  | toggleDO idx => exact sized.toggleDO_stays idx
  | outputDO idx => exact sized.outputDO_stays idx

/-- An index past the last output changes nothing. -/
theorem DoCall.run_of_namesNone {call : DoCall} (none_named : call.NamesNone object.mNum) :
    call.run object = some object := by
  obtain ⟨single, outside⟩ := none_named
  cases call with
  | setDO idx state =>
      exact congrArg some (object.setDO_of_not_lt single (UInt8.not_lt.mpr outside))
  | setRtDO idx state => exact if_pos outside
  | toggleDO idx => exact if_pos outside
  | outputDO idx => exact (object.outputDO_of_single single).trans (if_pos outside)

theorem DoSized.run_safe (sized : DoSized object) (call : DoCall) : call.Safe object := by
  obtain ⟨after, ran, _, _⟩ := sized.run_stays call
  refine ⟨after, ran, fun none_named => ?_⟩
  rw [DoCall.run_of_namesNone none_named] at ran
  exact (Option.some.inj ran).symm

/-- Every question is answered within the array except `getRtDO` past it. -/
theorem DoSized.answer_iff (sized : DoSized object) (query : DoQuery) :
    (∃ answer, query.answer object = some answer) ↔ query.InRange object.mNum := by
  cases query with
  | getDO idx => exact iff_of_true ⟨_, rfl⟩ trivial
  | getRtDO idx =>
      by_cases inside : idx < object.mNum
      · obtain ⟨pin, found⟩ := sized.get?_of_lt (UInt8.lt_iff_toNat_lt.mp inside)
        refine iff_of_true ⟨.inl (object.gpio.rtPinRead pin), ?_⟩ inside
        rw [DoQuery.answer, CCtrlGpioDO.getRtDO, found]
        rfl
      · have lost := sized.get?_of_le (UInt8.le_iff_toNat_le.mp (UInt8.not_lt.mp inside))
        refine iff_of_false ?_ inside
        rw [DoQuery.answer, CCtrlGpioDO.getRtDO, lost]
        rintro ⟨answer, answered⟩
        exact Option.some_ne_none answer answered.symm
  | showDO => exact iff_of_true ⟨_, rfl⟩ trivial

end Outputs

/-! ### LEDs -/

/-- `m_pPins` and `m_pLed` both have exactly `m_num` entries. -/
structure LedSized (object : CCtrlLED) : Prop where
  base : DoSized object.toCCtrlGpioDO
  records : object.mPLed.Holds object.mNum.toNat

/-- The operation returns and both arrays keep their sizes. -/
def LedStays (object : CCtrlLED) (result : Option CCtrlLED) : Prop :=
  ∃ after, result = some after ∧ LedSized after ∧ after.mNum = object.mNum

section Leds

variable {object : CCtrlLED}

theorem LedStays.bind {result : Option CCtrlLED} {rest : CCtrlLED → Option CCtrlLED}
    (first : LedStays object result)
    (second : ∀ middle, LedSized middle → middle.mNum = object.mNum →
      LedStays middle (rest middle)) : LedStays object (result.bind rest) := by
  obtain ⟨middle, ran, sized, same⟩ := first
  obtain ⟨after, finished, afterSized, afterSame⟩ := second middle sized same
  refine ⟨after, ?_, afterSized, afterSame.trans same⟩
  rw [ran]
  exact finished

theorem LedSized.stays_self (sized : LedSized object) : LedStays object (some object) :=
  ⟨object, rfl, sized, rfl⟩

theorem LedSized.inherited_stays (sized : LedSized object)
    {operation : CCtrlGpioDO → Option CCtrlGpioDO}
    (stays : DoStays object.toCCtrlGpioDO (operation object.toCCtrlGpioDO)) :
    LedStays object (object.inherited operation) := by
  obtain ⟨base, ran, baseSized, same⟩ := stays
  refine ⟨{ object with toCCtrlGpioDO := base }, ?_, ⟨baseSized, ?_⟩, same⟩
  · rw [CCtrlLED.inherited, ran]
    rfl
  · rw [same]
    exact sized.records

/-- A record below `m_num` can be written. -/
theorem LedSized.setRecord_stays (sized : LedSized object) {idx : UInt8}
    (inside : idx < object.mNum) (record : LedBlink) :
    LedStays object ((object.mPLed.set? idx.toNat record).bind fun cells =>
      some { object with mPLed := cells }) := by
  obtain ⟨cells, written, holds⟩ :=
    sized.records.set?_of_lt (UInt8.lt_iff_toNat_lt.mp inside) record
  refine ⟨{ object with mPLed := cells }, ?_, ⟨sized.base, holds⟩, rfl⟩
  rw [written]
  rfl

theorem LedSized.record_found (sized : LedSized object) {idx : UInt8}
    (inside : idx < object.mNum) : ∃ record, object.mPLed.get? idx.toNat = some record :=
  sized.records.get?_of_lt (UInt8.lt_iff_toNat_lt.mp inside)

theorem LedSized.blinkOn_stays (sized : LedSized object) (idx : UInt8)
    (onms offms rtTickGet : UInt32) :
    LedStays object (object.blinkOn idx onms offms rtTickGet) := by
  unfold CCtrlLED.blinkOn
  split
  · exact sized.stays_self
  · next inside => exact sized.setRecord_stays (UInt8.not_le.mp inside) _

theorem LedSized.blinkOff_stays (sized : LedSized object) (idx : UInt8) :
    LedStays object (object.blinkOff idx) := by
  unfold CCtrlLED.blinkOff
  split
  · exact sized.stays_self
  · next inside =>
      have named := UInt8.not_le.mp inside
      obtain ⟨record, found⟩ := sized.record_found named
      obtain ⟨cells, written, holds⟩ :=
        sized.records.set?_of_lt (UInt8.lt_iff_toNat_lt.mp named) LedBlink.zeroed
      have cleared : LedSized { object with mPLed := cells } := ⟨sized.base, holds⟩
      simp only [found, written, Option.bind_eq_bind, Option.bind_some]
      split
      · exact cleared.inherited_stays (cleared.base.setRtDO_stays idx _)
      · exact cleared.stays_self

theorem LedSized.steady_stays (sized : LedSized object) (idx : UInt8) (level : PinLevel) :
    LedStays object (object.steady idx level) := by
  unfold CCtrlLED.steady
  split
  · exact sized.stays_self
  · exact (sized.blinkOff_stays idx).bind fun middle middleSized _ =>
      middleSized.inherited_stays (middleSized.base.setRtDO_stays idx _)

theorem LedSized.toggle_stays (sized : LedSized object) (idx : UInt8) :
    LedStays object (object.toggle idx) := by
  unfold CCtrlLED.toggle
  split
  · exact sized.stays_self
  · exact (sized.blinkOff_stays idx).bind fun middle middleSized _ =>
      middleSized.inherited_stays (middleSized.base.toggleDO_stays idx)

/-- The second half of a pass on an LED of the sequence. -/
theorem LedSized.blinkPass_stays (sized : LedSized object) {i : UInt8}
    (inside : i < object.mNum) (record : LedBlink) (systick : UInt32) :
    LedStays object (object.blinkPass record i systick) := by
  unfold CCtrlLED.blinkPass
  split
  · exact sized.setRecord_stays inside _
  · obtain ⟨pin, found⟩ := sized.base.get?_of_lt (UInt8.lt_iff_toNat_lt.mp inside)
    have status : object.getRtDO i = some (object.gpio.rtPinRead pin) := by
      rw [CCtrlGpioDO.getRtDO, found]
      rfl
    rw [status, Option.bind_some]
    have driven (next : PinLevel) : LedStays object
        (if next ≠ object.gpio.rtPinRead pin then
          object.inherited fun base => base.setRtDO i next.toState
        else some object) := by
      split
      · exact sized.inherited_stays (sized.base.setRtDO_stays i _)
      · exact sized.stays_self
    apply (driven _).bind
    intro middle middleSized middleSame
    have named : i < middle.mNum := by
      rw [middleSame]
      exact inside
    exact middleSized.setRecord_stays named _

theorem LedSized.outputPass_stays (sized : LedSized object) {i : UInt8}
    (inside : i < object.mNum) (systick : UInt32) :
    LedStays object (object.outputPass i systick) := by
  obtain ⟨record, found⟩ := sized.record_found inside
  have output : LedStays object
      (if record.onTick = 0 ∧ record.offTick = 0 then
        object.inherited fun base => base.outputDO i
      else some object) := by
    split
    · exact sized.inherited_stays (sized.base.outputDO_stays i)
    · exact sized.stays_self
  rw [object.outputPass_eq found]
  apply output.bind
  intro middle middleSized middleSame
  have named : i < middle.mNum := by
    rw [middleSame]
    exact inside
  exact middleSized.blinkPass_stays named record systick

theorem LedSized.outputLeds_stays (sized : LedSized object) (systick : UInt32) {left : Nat}
    {first : UInt8} (inside : first.toNat + left ≤ object.mNum.toNat) :
    LedStays object (object.outputLeds systick left first) := by
  induction left generalizing object first with
  | zero => exact sized.stays_self
  | succ left inductionHypothesis =>
      have few := object.mNum.toNat_lt
      have next : (first + 1).toNat = first.toNat + 1 := toNat_succ_of_lt (by omega)
      have named : first < object.mNum := UInt8.lt_iff_toNat_lt.mpr (by omega)
      apply (sized.outputPass_stays named systick).bind
      intro middle middleSized middleSame
      apply inductionHypothesis middleSized
      rw [middleSame]
      omega

theorem LedSized.outputDO_stays (sized : LedSized object) {idx : UInt8} (systick : UInt32)
    (inRange : idx = 0xFF ∨ idx.toNat < object.mNum.toNat) :
    LedStays object (object.outputDO idx systick) := by
  by_cases all : idx = 0xFF
  · rw [all, object.outputDO_all]
    exact sized.outputLeds_stays systick (Nat.le_of_eq (Nat.zero_add _))
  · have inside : idx.toNat + 1 ≤ object.mNum.toNat := inRange.resolve_left all
    rw [object.outputDO_of_single all]
    exact sized.outputLeds_stays systick inside

/-- Past the last LED the first access of a poll is already outside the
records. -/
theorem LedSized.outputDO_past (sized : LedSized object) {idx : UInt8} (systick : UInt32)
    (single : idx ≠ 0xFF) (outside : object.mNum.toNat ≤ idx.toNat) :
    object.outputDO idx systick = none := by
  rw [object.outputDO_of_single single, CCtrlLED.outputLeds, CCtrlLED.outputPass,
    sized.records.get?_of_le outside]
  rfl

/-- An inherited operation that changes nothing. -/
theorem CCtrlLED.inherited_of_quiet {operation : CCtrlGpioDO → Option CCtrlGpioDO}
    (quiet : operation object.toCCtrlGpioDO = some object.toCCtrlGpioDO) :
    object.inherited operation = some object := by
  rw [CCtrlLED.inherited, quiet]
  rfl

/-- An index past the last LED changes nothing, polls apart. -/
theorem LedCall.run_of_namesNone {call : LedCall} (none_named : call.NamesNone object.mNum)
    (inRange : call.InRange object.mNum.toNat) : call.run object = some object := by
  obtain ⟨single, outside⟩ := none_named
  cases call with
  | setDO idx state =>
      rw [LedCall.run]
      apply CCtrlLED.inherited_of_quiet
      exact congrArg some (object.setDO_of_not_lt single (UInt8.not_lt.mpr outside))
  | setRtDO idx state =>
      rw [LedCall.run]
      apply CCtrlLED.inherited_of_quiet
      exact if_pos outside
  | toggleDO idx =>
      rw [LedCall.run]
      apply CCtrlLED.inherited_of_quiet
      exact if_pos outside
  | blinkOn idx onms offms rtTickGet => exact if_pos outside
  | blinkOff idx => exact if_pos outside
  | on idx => exact if_pos outside
  | off idx => exact if_pos outside
  | toggle idx => exact if_pos outside
  | outputDO idx systick =>
      have bound : object.mNum.toNat ≤ idx.toNat := UInt8.le_iff_toNat_le.mp outside
      exact absurd (inRange.resolve_left single) (Nat.not_lt.mpr bound)

theorem LedSized.run_stays (sized : LedSized object) {call : LedCall}
    (inRange : call.InRange object.mNum.toNat) : LedStays object (call.run object) := by
  cases call with
  | setDO idx state =>
      rw [LedCall.run]
      apply sized.inherited_stays
      exact sized.base.setDO_stays idx state
  | setRtDO idx state =>
      rw [LedCall.run]
      apply sized.inherited_stays
      exact sized.base.setRtDO_stays idx state
  | toggleDO idx =>
      rw [LedCall.run]
      apply sized.inherited_stays
      exact sized.base.toggleDO_stays idx
  | blinkOn idx onms offms now => exact sized.blinkOn_stays idx onms offms now
  | blinkOff idx => exact sized.blinkOff_stays idx
  | on idx => exact sized.steady_stays idx _
  | off idx => exact sized.steady_stays idx _
  | toggle idx => exact sized.toggle_stays idx
  | outputDO idx systick => exact sized.outputDO_stays systick inRange

/-- Every operation is safe, polls of a single index past the last LED apart. -/
theorem LedSized.run_safe_iff (sized : LedSized object) (call : LedCall) :
    call.Safe object ↔ call.InRange object.mNum.toNat := by
  constructor
  · rintro ⟨after, ran, _⟩
    cases call with
    | outputDO idx systick =>
        apply Classical.byContradiction
        intro outOfRange
        obtain ⟨single, past⟩ := not_or.mp outOfRange
        rw [LedCall.run, sized.outputDO_past systick single (Nat.le_of_not_lt past)] at ran
        exact Option.some_ne_none after ran.symm
    | _ => trivial
  · intro inRange
    obtain ⟨after, ran, _, _⟩ := sized.run_stays inRange
    refine ⟨after, ran, fun none_named => ?_⟩
    rw [LedCall.run_of_namesNone none_named inRange] at ran
    exact (Option.some.inj ran).symm

end Leds

/-- Every operation on outputs and on LEDs, for every index, stays inside the
arrays and leaves an object alone when the index names no output; the only
exceptions are `getRtDO` past the last output and a poll of a single LED past the
last one. -/
theorem operations_safe_iff {output : CCtrlGpioDO} {led : CCtrlLED} (outputSized : DoSized output)
    (ledSized : LedSized led) :
    (∀ call : DoCall, call.Safe output) ∧
    (∀ query : DoQuery,
      (∃ answer, query.answer output = some answer) ↔ query.InRange output.mNum) ∧
    (∀ call : LedCall, call.Safe led ↔ call.InRange led.mNum.toNat) ∧
    ∀ query : DoQuery,
      (∃ answer, query.answer led.toCCtrlGpioDO = some answer) ↔ query.InRange led.mNum :=
  ⟨outputSized.run_safe, outputSized.answer_iff, ledSized.run_safe_iff, ledSized.base.answer_iff⟩

theorem twoLeds_sized : LedSized twoLeds :=
  ⟨rfl, rfl⟩

/-- With two LEDs, a poll of the third and a look at its pin. -/
theorem third_led_not_safe :
    LedSized twoLeds ∧ ¬ (LedCall.outputDO 2 100).Safe twoLeds ∧
      ¬ ∃ answer, (DoQuery.getRtDO 2).answer twoLeds.toCCtrlGpioDO = some answer := by
  refine ⟨twoLeds_sized, ?_, ?_⟩
  · rintro ⟨after, ran, _⟩
    exact Option.some_ne_none after ran.symm
  · rintro ⟨answer, answered⟩
    exact Option.some_ne_none answer answered.symm

/-- Two outputs and two LEDs: a poll of the second is safe, one of the third is
not. -/
theorem twoLeds_operations_safe_iff :
    (LedCall.outputDO 1 100).Safe twoLeds ∧ ¬ (LedCall.outputDO 2 100).Safe twoLeds := by
  obtain ⟨_, _, safe, _⟩ := operations_safe_iff twoLeds_sized.base twoLeds_sized
  refine ⟨(safe _).mpr ?_, mt (safe _).mp ?_⟩
  · exact Or.inr (by decide)
  · rintro (all | inside)
    · exact absurd all (by decide)
    · exact absurd inside (by decide)

/-! ### A second init -/

/-- The count and both arrays are in step: every output has a pin and a record. -/
structure InStep (object : CCtrlLED) : Prop where
  pins : object.mPPins.Covers object.mNum.toNat
  records : object.mPLed.Covers object.mNum.toNat

/-- Fresh records are in step with the count when there are enough of them. -/
theorem InStep.live_iff {object : CCtrlLED} (before : InStep object) (num : UInt8) :
    InStep { object with mPLed := .live (List.replicate num.toNat LedBlink.zeroed) } ↔
      object.mNum ≤ num := by
  have enough : object.mNum.toNat ≤ (List.replicate num.toNat LedBlink.zeroed).length ↔
      object.mNum ≤ num := by
    rw [List.length_replicate]
    exact UInt8.le_iff_toNat_le.symm
  constructor
  · intro inStep
    exact enough.mp inStep.records
  · intro fits
    exact ⟨before.pins, enough.mpr fits⟩

/-- No records are in step with no outputs only. -/
theorem InStep.null_iff {object : CCtrlLED} (before : InStep object) :
    InStep { object with mPLed := .null } ↔ object.mNum = 0 := by
  constructor
  · intro inStep
    exact UInt8.toNat_inj.mp inStep.records
  · intro empty
    exact ⟨before.pins, congrArg UInt8.toNat empty⟩

/-- Given a pin list, `init` replaces the records and leaves pins and count, so
count and arrays stay in step exactly when there were no outputs, or when the
records are allocated and there are not fewer of them than outputs. -/
theorem CCtrlLED.init_inStep_iff {object : CCtrlLED} (before : InStep object)
    (pins : List UInt16) (pIniList : Option (List UInt8)) (num : UInt8)
    (malloc : Option (Nat → LedBlink)) (calls : InitCalls) :
    ∃ after, object.init (some pins) pIniList num malloc calls = some after ∧
      (InStep after ↔
        object.mNum = 0 ∨ num ≠ 0 ∧ malloc ≠ none ∧ object.mNum ≤ num) := by
  by_cases refused : num = 0 ∨ malloc = none
  · refine ⟨_, object.init_refused (some pins) pIniList calls refused, ?_⟩
    rw [before.null_iff]
    constructor
    · exact Or.inl
    · rintro (empty | ⟨nonempty, answered, _⟩)
      · exact empty
      · exact absurd refused (not_or.mpr ⟨nonempty, answered⟩)
  · obtain ⟨nonempty, answered⟩ := not_or.mp refused
    obtain ⟨content, rfl⟩ := Option.ne_none_iff_exists'.mp answered
    refine ⟨_, object.init_some pins pIniList calls content nonempty, ?_⟩
    rw [before.live_iff]
    constructor
    · intro fits
      exact Or.inr ⟨nonempty, answered, fits⟩
    · rintro (empty | ⟨_, _, fits⟩)
      · rw [empty]
        exact UInt8.zero_le
      · exact fits

theorem twoLeds_inStep : InStep twoLeds :=
  ⟨Nat.le_refl 2, Nat.le_refl 2⟩

/-- A second `init` of two LEDs with one pin: one record, still two outputs. -/
theorem second_init_out_of_step :
    InStep twoLeds ∧ ∃ after, twoLeds.init (some [42]) none 1 (some fun _ => .zeroed)
      ⟨none, fun _ => 0⟩ = some after ∧ ¬ InStep after := by
  refine ⟨twoLeds_inStep, _, twoLeds.init_some [42] none _ _ (by decide), fun inStep => ?_⟩
  exact absurd inStep.records (Nat.not_succ_le_self 1)

/-- The same call, and one with room for both. -/
theorem twoLeds_init_inStep_iff :
    (∃ after, twoLeds.init (some [42]) none 1 (some fun _ => .zeroed) ⟨none, fun _ => 0⟩ =
        some after ∧ ¬ InStep after) ∧
      ∃ after, twoLeds.init (some [42, 43]) none 2 (some fun _ => .zeroed) ⟨none, fun _ => 0⟩ =
        some after ∧ InStep after := by
  obtain ⟨fewer, ran, less⟩ := CCtrlLED.init_inStep_iff twoLeds_inStep [42] none 1
    (some fun _ => .zeroed) ⟨none, fun _ => 0⟩
  obtain ⟨same, ran', enough⟩ := CCtrlLED.init_inStep_iff twoLeds_inStep [42, 43] none 2
    (some fun _ => .zeroed) ⟨none, fun _ => 0⟩
  refine ⟨⟨fewer, ran, mt less.mp ?_⟩, same, ran', enough.mpr (Or.inr ⟨by decide, ?_, ?_⟩)⟩
  · rintro (empty | ⟨_, _, fits⟩)
    · exact absurd empty (by decide)
    · exact absurd fits (by decide)
  · exact Option.some_ne_none _
  · exact UInt8.le_refl 2

end RttIctl.Bsp
