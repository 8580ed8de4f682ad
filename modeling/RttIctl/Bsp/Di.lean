import RttIctl.Bsp.DoCache

/-!
Owns the digital inputs of `bspDIO.cpp`: the `CCtrlGpioDI` object with its word
`m_diDat`, every operation of the class, and the inputs and levels for which
`showDI` and `getRtDI` both report the level of the pin. `m_diDat` has 16 bits
and `showDI` returns eight of them.

It does not own the pin device.
-/

namespace RttIctl.Bsp

open Lib

/-- A `CCtrlGpioDI` object and the pin device it reads. -/
structure CCtrlGpioDI where
  mDiDat : BitVec 16
  mPPins : Block UInt16
  mNum : UInt8
  gpio : Gpio

/-- The constructor. -/
def CCtrlGpioDI.fresh (gpio : Gpio) : CCtrlGpioDI where
  mDiDat := 0
  mPPins := .null
  mNum := 0
  gpio := gpio

namespace CCtrlGpioDI

/-- With 0xFF for every input the word becomes `0xFF`, not all ones. -/
def setDI (self : CCtrlGpioDI) (idx state : UInt8) : CCtrlGpioDI :=
  if 0xFF = idx then
    if PinLevel.low.toState = state then { self with mDiDat := 0 }
    else { self with mDiDat := 0xFF }
  else if PinLevel.low.toState = state then { self with mDiDat := clearBit self.mDiDat idx }
  else { self with mDiDat := raiseBit self.mDiDat idx }

/-- The loop of `updataDI` with `left` passes to go. -/
def updataPins (self : CCtrlGpioDI) : Nat → UInt8 → Option CCtrlGpioDI
  | 0, _ => some self
  | left + 1, i => do
      let pin ← self.mPPins.get? i.toNat
      updataPins (self.setDI i (self.gpio.rtPinRead pin).toState) left (i + 1)

def updataDI (self : CCtrlGpioDI) : Option CCtrlGpioDI :=
  self.updataPins self.mNum.toNat 0

def getRtDI (self : CCtrlGpioDI) (idx : UInt8) : Option (CCtrlGpioDI × PinLevel) :=
  if self.mNum ≤ idx then some (self, .low)
  else do
    let pin ← self.mPPins.get? idx.toNat
    let self := self.setDI idx (self.gpio.rtPinRead pin).toState
    some (self, if self.mDiDat.setWidth 32 &&& idxBit idx ≠ 0 then .high else .low)

/-- The return type of `showDI` is `rt_uint8_t`. -/
def showDI (self : CCtrlGpioDI) : Option (CCtrlGpioDI × BitVec 8) := do
  let self ← self.updataDI
  some (self, self.mDiDat.setWidth 8)

/-- The loop of `init` with `left` passes to go. -/
def initPins (pinlst : List UInt16) (self : CCtrlGpioDI) : Nat → UInt8 → Option CCtrlGpioDI
  | 0, _ => some self
  | left + 1, i => do
      let pin ← pinlst[i.toNat]?
      let cells ← self.mPPins.set? i.toNat pin
      let self := { self with mPPins := cells }
      let pin ← self.mPPins.get? i.toNat
      let self := { self with gpio := self.gpio.rtPinMode pin .input }
      initPins pinlst self left (i + 1)

def init (self : CCtrlGpioDI) (pinlst : List UInt16) (num : UInt8)
    (malloc : Option (Nat → UInt16)) : Option CCtrlGpioDI :=
  let self :=
    if self.mPPins ≠ .null then { self with mNum := 0, mDiDat := 0, mPPins := .freed }
    else self
  let self := { self with mPPins := .malloc malloc num.toNat }
  if self.mPPins ≠ .null then do
    let self ← initPins pinlst { self with mNum := num } num.toNat 0
    self.updataDI
  else some self

end CCtrlGpioDI

/-! ### Reading the pins -/

/-- `m_pPins` has exactly `m_num` entries. -/
def DiSized (object : CCtrlGpioDI) : Prop :=
  object.mPPins.Holds object.mNum.toNat

variable {object : CCtrlGpioDI}

theorem CCtrlGpioDI.setDI_of_single (self : CCtrlGpioDI) {idx : UInt8} (single : idx ≠ 0xFF)
    (level : PinLevel) :
    self.setDI idx level.toState = { self with mDiDat := commandBit self.mDiDat idx level } := by
  unfold setDI
  rw [if_neg (Ne.symm single)]
  cases level <;> rfl

theorem ne_all_of_lt {idx num : UInt8} (inside : idx < num) : idx ≠ 0xFF := by
  rintro rfl
  have bound := UInt8.lt_iff_toNat_lt.mp inside
  have few := num.toNat_lt
  rw [show (0xFF : UInt8).toNat = 255 by rfl] at bound
  omega

/-- The loop copies the levels of the pins it runs over into the word and leaves
its other bits. -/
theorem DiSized.updataPins_bits (sized : DiSized object) {left : Nat} {first : UInt8}
    (inside : first.toNat + left ≤ object.mNum.toNat) :
    ∃ diDat, object.updataPins left first = some { object with mDiDat := diDat } ∧
      (∀ j < 16, ¬ (first.toNat ≤ j ∧ j < first.toNat + left) →
        diDat.getLsbD j = object.mDiDat.getLsbD j) ∧
      ∀ j < 16, first.toNat ≤ j → j < first.toNat + left → ∀ pin,
        object.mPPins.get? j = some pin → .ofBit (diDat.getLsbD j) = object.gpio.level pin := by
  induction left generalizing object first with
  | zero => exact ⟨object.mDiDat, rfl, fun _ _ _ => rfl, fun j _ _ _ => by omega⟩
  | succ left inductionHypothesis =>
      have named : first < object.mNum := UInt8.lt_iff_toNat_lt.mpr (by omega)
      obtain ⟨own, found⟩ := sized.get?_of_lt (UInt8.lt_iff_toNat_lt.mp named)
      have few := object.mNum.toNat_lt
      have next : (first + 1).toNat = first.toNat + 1 := toNat_succ_of_lt (by omega)
      have read : DiSized { object with
          mDiDat := commandBit object.mDiDat first (object.gpio.level own) } := sized
      have rest : (first + 1).toNat + left ≤ object.mNum.toNat := by omega
      obtain ⟨diDat, ran, kept, copied⟩ := inductionHypothesis read rest
      refine ⟨diDat, ?_, fun j low outside => ?_, fun j low after before pin pinFound => ?_⟩
      · rw [CCtrlGpioDI.updataPins, found, Option.bind_eq_bind, Option.bind_some,
          CCtrlGpioDI.setDI_of_single object (ne_all_of_lt named)]
        exact ran
      · rw [kept j low (by omega), getLsbD_commandBit_of_ne _ _ (by omega)]
      · by_cases latest : j = first.toNat
        · subst latest
          rw [kept _ low (by omega), ofBit_commandBit _ _ _ low, if_pos rfl]
          rw [found, Option.some.injEq] at pinFound
          rw [pinFound]
        · exact copied j low (by omega) (by omega) pin pinFound

/-- `getRtDI` goes through the same word. -/
theorem CCtrlGpioDI.getRtDI_eq {idx : UInt8} (inside : idx < object.mNum) {pin : UInt16}
    (found : object.mPPins.get? idx.toNat = some pin) :
    ∃ after, object.getRtDI idx =
      some (after, if idx.toNat < 16 then object.gpio.level pin else .low) := by
  have level : PinLevel.ofBit
      ((commandBit object.mDiDat idx (object.gpio.level pin)).getLsbD idx.toNat) =
      if idx.toNat < 16 then object.gpio.level pin else .low := by
    split
    · next low => rw [ofBit_commandBit _ _ _ low, if_pos rfl]
    · next high => rw [BitVec.getLsbD_of_ge _ _ (Nat.le_of_not_lt high), PinLevel.ofBit]
  refine ⟨{ object with
    mDiDat := commandBit object.mDiDat idx (object.gpio.level pin) }, ?_⟩
  have tested := ite_and_idxBit (commandBit object.mDiDat idx (object.gpio.level pin)) idx
  rw [level] at tested
  rw [CCtrlGpioDI.getRtDI, if_neg (UInt8.not_le.mpr inside), found, Option.bind_eq_bind,
    Option.bind_some, Gpio.rtPinRead, object.setDI_of_single (ne_all_of_lt inside), ← tested]

/-! ### Reports -/

/-- Both ways of reading give the level of every input's pin. -/
def Reports (object : CCtrlGpioDI) : Prop :=
  ∃ after shown, object.showDI = some (after, shown) ∧
    ∀ i < object.mNum, ∃ pin, object.mPPins.get? i.toNat = some pin ∧
      .ofBit (shown.getLsbD i.toNat) = object.gpio.level pin ∧
      ∃ later, object.getRtDI i = some (later, object.gpio.level pin)

/-- The levels are reported exactly when no input from the ninth on is high. -/
theorem DiSized.reports_iff (sized : DiSized object) :
    Reports object ↔ ∀ i < object.mNum, 8 ≤ i.toNat → ∀ pin,
      object.mPPins.get? i.toNat = some pin → object.gpio.level pin = .low := by
  obtain ⟨diDat, ran, _, copied⟩ := sized.updataPins_bits
    (show (0 : UInt8).toNat + object.mNum.toNat ≤ object.mNum.toNat from
      Nat.le_of_eq (Nat.zero_add _))
  have shows : object.showDI = some ({ object with mDiDat := diDat }, diDat.setWidth 8) := by
    rw [CCtrlGpioDI.showDI, CCtrlGpioDI.updataDI, ran]
    rfl
  have narrow {i : Nat} (wide : 8 ≤ i) : (diDat.setWidth 8).getLsbD i = false :=
    BitVec.getLsbD_of_ge _ i wide
  constructor
  · rintro ⟨after, shown, isShown, levels⟩ i inside wide pin found
    rw [shows, Option.some.injEq, Prod.mk.injEq] at isShown
    obtain ⟨other, otherFound, level, _⟩ := levels i inside
    rw [found, Option.some.injEq] at otherFound
    subst otherFound
    rw [← isShown.2, narrow wide, PinLevel.ofBit] at level
    exact level.symm
  · intro quiet
    refine ⟨_, _, shows, fun i inside => ?_⟩
    have bound : i.toNat < object.mNum.toNat := UInt8.lt_iff_toNat_lt.mp inside
    obtain ⟨pin, found⟩ := sized.get?_of_lt bound
    obtain ⟨later, read⟩ := CCtrlGpioDI.getRtDI_eq inside found
    refine ⟨pin, found, ?_, later, ?_⟩
    · by_cases wide : 8 ≤ i.toNat
      · rw [narrow wide, PinLevel.ofBit, quiet i inside wide pin found]
      · have low : i.toNat < 8 := Nat.lt_of_not_le wide
        rw [BitVec.getLsbD_setWidth, decide_eq_true low, Bool.true_and]
        exact copied _ (by omega) (Nat.zero_le _)
          (Nat.lt_of_lt_of_eq bound (Nat.zero_add _).symm) pin found
    · rw [read]
      split
      · rfl
      · next high => rw [quiet i inside (by omega) pin found]

/-! ### Initialisation -/

/-- The loop of `init` fills the array from the list. -/
theorem CCtrlGpioDI.initPins_spec {pinlst : List UInt16} {self : CCtrlGpioDI}
    {cells : List UInt16} {left : Nat} {first : UInt8} (live : self.mPPins = .live cells)
    (room : first.toNat + left = cells.length) (few : cells.length ≤ 255)
    (enough : cells.length ≤ pinlst.length)
    (filled : ∀ i < first.toNat, cells[i]? = pinlst[i]?) :
    ∃ after cells', initPins pinlst self left first = some after ∧
      after.mPPins = .live cells' ∧ cells'.length = cells.length ∧ after.mNum = self.mNum ∧
      ∀ i < cells.length, cells'[i]? = pinlst[i]? := by
  induction left generalizing self cells first with
  | zero => exact ⟨self, cells, rfl, live, rfl, rfl, fun i inside => filled i (by omega)⟩
  | succ left inductionHypothesis =>
      have range : first.toNat < cells.length := by omega
      have listed : pinlst[first.toNat]? = some pinlst[first.toNat] :=
        List.getElem?_eq_getElem (by omega)
      have next : (first + 1).toNat = first.toNat + 1 := toNat_succ_of_lt (by omega)
      have length : (cells.set first.toNat pinlst[first.toNat]).length = cells.length :=
        List.length_set
      have stored : (Block.live (cells.set first.toNat pinlst[first.toNat])).get? first.toNat =
          some pinlst[first.toNat] := List.getElem?_set_self range
      obtain ⟨after, cells', ran, afterLive, afterLength, sameNum, afterFilled⟩ :=
        inductionHypothesis
          (show ({ self with
              mPPins := .live (cells.set first.toNat pinlst[first.toNat])
              gpio := self.gpio.rtPinMode pinlst[first.toNat] .input } : CCtrlGpioDI).mPPins =
            .live (cells.set first.toNat pinlst[first.toNat]) from rfl)
          (show (first + 1).toNat + left = _ by omega) (by omega) (by omega)
          (fun i inside => by
            by_cases latest : first.toNat = i
            · rw [← latest, listed, List.getElem?_set_self range]
            · rw [List.getElem?_set_ne latest]
              exact filled i (by omega))
      refine ⟨after, cells', ?_, afterLive, afterLength.trans length, sameNum, ?_⟩
      · rw [initPins, listed, Option.bind_eq_bind, Option.bind_some, live,
          Block.set?_live range, Option.bind_eq_bind, Option.bind_some]
        simp only [stored, Option.bind_some]
        exact ran
      · intro i inside
        exact afterFilled i (by omega)

/-- From a new array on, `init` fills it from the list and reads the pins. -/
theorem CCtrlGpioDI.fill_spec {start : CCtrlGpioDI} {pinlst cells : List UInt16} {num : UInt8}
    (live : start.mPPins = .live cells) (count : cells.length = num.toNat)
    (counted : start.mNum = num) (enough : num.toNat ≤ pinlst.length) :
    ∃ ready, ((initPins pinlst start num.toNat 0).bind fun self => self.updataDI) = some ready ∧
      DiSized ready ∧ ready.mNum = num ∧
      ∀ i < num, ready.mPPins.get? i.toNat = pinlst[i.toNat]? := by
  have few := num.toNat_lt
  have whole : (0 : UInt8).toNat + num.toNat = cells.length := (Nat.zero_add _).trans count.symm
  have listed : cells.length ≤ pinlst.length := by omega
  obtain ⟨filled, cells', ran, filledLive, length, sameNum, same⟩ :=
    initPins_spec live whole (by omega) listed fun i inside => absurd inside (Nat.not_lt_zero i)
  have filledSized : DiSized filled := by
    rw [DiSized, filledLive, sameNum, counted]
    exact length.trans count
  have every : (0 : UInt8).toNat + filled.mNum.toNat ≤ filled.mNum.toNat :=
    Nat.le_of_eq (Nat.zero_add _)
  obtain ⟨word, updated, _, _⟩ := filledSized.updataPins_bits every
  refine ⟨{ filled with mDiDat := word }, ?_, filledSized, sameNum.trans counted,
    fun i inside => ?_⟩
  · rw [ran, Option.bind_some]
    exact updated
  · have bound : i.toNat < num.toNat := UInt8.lt_iff_toNat_lt.mp inside
    show filled.mPPins.get? i.toNat = _
    rw [filledLive]
    exact same i.toNat (by omega)

/-- Without an array, asked for nothing or refused, no input is left. -/
theorem CCtrlGpioDI.init_refused {self : CCtrlGpioDI} (sized : DiSized self)
    (pinlst : List UInt16) {num : UInt8} {malloc : Option (Nat → UInt16)}
    (refused : num = 0 ∨ malloc = none) :
    ∃ ready, self.init pinlst num malloc = some ready ∧ DiSized ready ∧ ready.mNum = 0 := by
  have lost : Block.malloc malloc num.toNat = .null :=
    Block.malloc_refused (refused.imp_left (congrArg UInt8.toNat))
  unfold init
  by_cases fresh : self.mPPins = .null
  · have zero : self.mNum.toNat = 0 := by
      have holds : self.mPPins.Holds self.mNum.toNat := sized
      rw [fresh] at holds
      exact holds
    refine ⟨{ self with mPPins := .null }, ?_, zero, UInt8.toNat_inj.mp zero⟩
    simp [fresh, lost]
  · refine ⟨{ self with mNum := 0, mDiDat := 0, mPPins := .null }, ?_, rfl, rfl⟩
    simp [fresh, lost]

/-- Given its memory, `init` takes any number of inputs and leaves an array of
that size with the pins of the list. -/
theorem CCtrlGpioDI.init_spec {self : CCtrlGpioDI} (sized : DiSized self) {pinlst : List UInt16}
    {num : UInt8} (enough : num.toNat ≤ pinlst.length) (content : Nat → UInt16) :
    ∃ ready, self.init pinlst num (some content) = some ready ∧ DiSized ready ∧
      ready.mNum = num ∧ ∀ i < num, ready.mPPins.get? i.toNat = pinlst[i.toNat]? := by
  by_cases empty : num = 0
  · obtain ⟨ready, ran, readySized, zero⟩ := init_refused sized pinlst (Or.inl empty)
    refine ⟨ready, ran, readySized, zero.trans empty.symm, fun i inside => ?_⟩
    rw [empty] at inside
    exact absurd inside (UInt8.not_lt.mpr UInt8.zero_le)
  · have positive : num.toNat ≠ 0 := fun zero => empty (UInt8.toNat_inj.mp zero)
    have allocated : Block.malloc (some content) num.toNat =
        .live ((List.range num.toNat).map content) := if_neg positive
    have count : ((List.range num.toNat).map content).length = num.toNat := by
      rw [List.length_map, List.length_range]
    unfold init
    by_cases fresh : self.mPPins = .null
    · simp only [fresh, ne_eq, not_true_eq_false, if_false, allocated, reduceCtorEq,
        not_false_eq_true, if_true]
      exact fill_spec rfl count rfl enough
    · simp only [fresh, ne_eq, not_false_eq_true, if_true, allocated, reduceCtorEq]
      exact fill_spec rfl count rfl enough

/-- From its constructor on, an object keeps the array and the count in step,
whatever the allocator answers. -/
theorem CCtrlGpioDI.init_sized {self : CCtrlGpioDI} (sized : DiSized self)
    {pinlst : List UInt16} {num : UInt8} (enough : num.toNat ≤ pinlst.length)
    (malloc : Option (Nat → UInt16)) :
    ∃ ready, self.init pinlst num malloc = some ready ∧ DiSized ready := by
  cases malloc with
  | some content =>
      obtain ⟨ready, ran, readySized, _, _⟩ := init_spec sized enough content
      exact ⟨ready, ran, readySized⟩
  | none =>
      obtain ⟨ready, ran, readySized, _⟩ := init_refused sized pinlst (Or.inr rfl)
      exact ⟨ready, ran, readySized⟩

theorem fresh_sized (gpio : Gpio) : DiSized (.fresh gpio) := rfl

/-- Initialised for any number of inputs, with any word and any levels after
that, the object reports the level of every input both ways exactly when no input
from the ninth on is high. -/
theorem init_reports_iff {self : CCtrlGpioDI} (sized : DiSized self) {pinlst : List UInt16}
    {num : UInt8} (enough : num.toNat ≤ pinlst.length) (content : Nat → UInt16) :
    ∃ ready, self.init pinlst num (some content) = some ready ∧ ready.mNum = num ∧
      ∀ (diDat : BitVec 16) (level : UInt16 → PinLevel),
        Reports { ready with mDiDat := diDat, gpio := { ready.gpio with level := level } } ↔
          ∀ i < num, 8 ≤ i.toNat → ∀ pin, pinlst[i.toNat]? = some pin → level pin = .low := by
  obtain ⟨ready, ran, readySized, count, listed⟩ :=
    CCtrlGpioDI.init_spec sized enough content
  refine ⟨ready, ran, count, fun diDat level => ?_⟩
  have observed : DiSized
      { ready with mDiDat := diDat, gpio := { ready.gpio with level := level } } := readySized
  rw [observed.reports_iff]
  constructor
  · intro quiet i inside wide pin found
    exact quiet i (Nat.lt_of_lt_of_eq inside (congrArg UInt8.toNat count).symm) wide pin
      ((listed i inside).trans found)
  · intro quiet i inside wide pin found
    have named : i < num := Nat.lt_of_lt_of_eq inside (congrArg UInt8.toNat count)
    exact quiet i named wide pin ((listed i named).symm.trans found)

/-- Nine inputs on pins 20 to 28, the last of them high. -/
def nineInputs : List UInt16 := [20, 21, 22, 23, 24, 25, 26, 27, 28]

def ninthHigh (pin : UInt16) : PinLevel := if pin = 28 then .high else .low

/-- A fresh object initialised for the nine inputs does not report the ninth. -/
theorem ninth_input_not_reported :
    ∃ ready, (CCtrlGpioDI.fresh ⟨fun _ => .output, fun _ => .low⟩).init nineInputs 9
        (some fun _ => 0) = some ready ∧
      ¬ Reports { ready with mDiDat := 0, gpio := { ready.gpio with level := ninthHigh } } := by
  obtain ⟨ready, ran, sized, count, listed⟩ := CCtrlGpioDI.init_spec
    (fresh_sized ⟨fun _ => .output, fun _ => .low⟩)
    (show (9 : UInt8).toNat ≤ nineInputs.length by decide) (fun _ => 0)
  refine ⟨ready, ran, fun reports => ?_⟩
  have observed : DiSized
      { ready with mDiDat := 0, gpio := { ready.gpio with level := ninthHigh } } := sized
  have last : (8 : UInt8) < ready.mNum := by
    rw [count]
    decide
  have quiet : ninthHigh 28 = .low := observed.reports_iff.mp reports 8 last (by decide) 28
    ((listed 8 (by decide)).trans rfl)
  exact absurd quiet (by decide)

/-- With the ninth low again every level is reported. -/
theorem nineInputs_reports_iff :
    ∃ ready, (CCtrlGpioDI.fresh ⟨fun _ => .output, fun _ => .low⟩).init nineInputs 9
        (some fun _ => 0) = some ready ∧
      Reports { ready with mDiDat := 0, gpio := { ready.gpio with level := fun _ => .low } } ∧
      ¬ Reports { ready with mDiDat := 0, gpio := { ready.gpio with level := ninthHigh } } := by
  obtain ⟨ready, ran, _, reports⟩ := init_reports_iff
    (fresh_sized ⟨fun _ => .output, fun _ => .low⟩)
    (show (9 : UInt8).toNat ≤ nineInputs.length by decide) (fun _ => 0)
  refine ⟨ready, ran, (reports 0 _).mpr fun _ _ _ _ _ => rfl, fun reported => ?_⟩
  have quiet := (reports 0 ninthHigh).mp reported 8 (by decide) (by decide) 28 rfl
  exact absurd quiet (by decide)

end RttIctl.Bsp
