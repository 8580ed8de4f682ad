import RttIctl.Lib.Block

/-!
Owns the digital outputs of `bspDIO.cpp`: the pin device, the `CCtrlGpioDO`
object with its cache `m_doSet` and its pin array, and every operation of the
class. Operations that index the pin array have no result outside it.

It does not own what holds over sequences of commands, the LED sequences built
on top or the digital inputs.
-/

namespace RttIctl.Bsp

open Lib

/-! ### The pin device -/

/-- Levels of a pin, `PIN_LOW` and `PIN_HIGH`. -/
inductive PinLevel
  | low
  | high
  deriving DecidableEq, Repr

/-- `PIN_LOW` is 0 and `PIN_HIGH` is 1. -/
def PinLevel.toState : PinLevel → UInt8
  | .low => 0
  | .high => 1

/-- How every command reads its `state` argument: `PIN_LOW == state` or not. -/
def PinLevel.ofState (state : UInt8) : PinLevel :=
  if PinLevel.low.toState = state then .low else .high

/-- The level a cached bit stands for. -/
def PinLevel.ofBit : Bool → PinLevel
  | false => .low
  | true => .high

def PinLevel.toggled : PinLevel → PinLevel
  | .low => .high
  | .high => .low

/-- The `PIN_MODE_*` values. -/
inductive PinMode
  | output
  | input
  | inputPullup
  | inputPulldown
  | outputOd
  deriving DecidableEq, Repr

/-- The pin device: the mode and the level of every pin. An output reads back
the last level written to it. -/
structure Gpio where
  mode : UInt16 → PinMode
  level : UInt16 → PinLevel

def Gpio.rtPinMode (gpio : Gpio) (pin : UInt16) (mode : PinMode) : Gpio :=
  { gpio with mode := fun other => if other = pin then mode else gpio.mode other }

def Gpio.rtPinWrite (gpio : Gpio) (pin : UInt16) (level : PinLevel) : Gpio :=
  { gpio with level := fun other => if other = pin then level else gpio.level other }

def Gpio.rtPinRead (gpio : Gpio) (pin : UInt16) : PinLevel :=
  gpio.level pin

/-! ### The cached word -/

/-- `1 << idx` on 32 bits; a register shift of 32 or more leaves nothing. -/
def idxBit (idx : UInt8) : BitVec 32 :=
  1#32 <<< idx.toNat

/-- `m_doSet |= (1<<idx)`. -/
def raiseBit (doSet : BitVec 16) (idx : UInt8) : BitVec 16 :=
  (doSet.setWidth 32 ||| idxBit idx).setWidth 16

/-- `m_doSet &= ~(1<<idx)`. -/
def clearBit (doSet : BitVec 16) (idx : UInt8) : BitVec 16 :=
  (doSet.setWidth 32 &&& ~~~ idxBit idx).setWidth 16

/-- The cached word after output `idx` is commanded to a level. -/
def commandBit (doSet : BitVec 16) (idx : UInt8) : PinLevel → BitVec 16
  | .low => clearBit doSet idx
  | .high => raiseBit doSet idx

/-! ### CCtrlGpioDO -/

/-- A `CCtrlGpioDO` object and the pin device it drives. -/
structure CCtrlGpioDO where
  mDoSet : BitVec 16
  mPPins : Block UInt16
  mNum : UInt8
  gpio : Gpio

/-- The constructor. -/
def CCtrlGpioDO.fresh (gpio : Gpio) : CCtrlGpioDO where
  mDoSet := 0
  mPPins := .null
  mNum := 0
  gpio := gpio

namespace CCtrlGpioDO

def setDO (self : CCtrlGpioDO) (idx state : UInt8) : CCtrlGpioDO :=
  if 0xFF = idx then
    if PinLevel.low.toState = state then { self with mDoSet := 0 }
    else { self with mDoSet := 0xFFFF }
  else if idx < self.mNum then
    if PinLevel.low.toState = state then { self with mDoSet := clearBit self.mDoSet idx }
    else { self with mDoSet := raiseBit self.mDoSet idx }
  else self

/-- Command a pin and its cached bit together, as `setRtDO` and `toggleDO` do in
each of their branches. No result means an access outside the pin array. -/
def drive (self : CCtrlGpioDO) (idx : UInt8) (level : PinLevel) : Option CCtrlGpioDO := do
  let pin ← self.mPPins.get? idx.toNat
  some { self with
    mDoSet := commandBit self.mDoSet idx level
    gpio := self.gpio.rtPinWrite pin level }

def setRtDO (self : CCtrlGpioDO) (idx state : UInt8) : Option CCtrlGpioDO :=
  if self.mNum ≤ idx then some self
  else if PinLevel.low.toState = state then self.drive idx .low
  else self.drive idx .high

def toggleDO (self : CCtrlGpioDO) (idx : UInt8) : Option CCtrlGpioDO :=
  if self.mNum ≤ idx then some self
  else do
    let pin ← self.mPPins.get? idx.toNat
    if PinLevel.high = self.gpio.rtPinRead pin then self.drive idx .low
    else self.drive idx .high

def getDO (self : CCtrlGpioDO) (idx : UInt8) : PinLevel :=
  if self.mDoSet.setWidth 32 &&& idxBit idx ≠ 0 then .high else .low

/-- `getRtDO` reads the pin with no test of the index. -/
def getRtDO (self : CCtrlGpioDO) (idx : UInt8) : Option PinLevel := do
  let pin ← self.mPPins.get? idx.toNat
  some (self.gpio.rtPinRead pin)

def showDO (self : CCtrlGpioDO) : BitVec 16 :=
  self.mDoSet

/-- The loop of `outputDO` with `left` passes to go. -/
def outputPins (self : CCtrlGpioDO) : Nat → UInt8 → Option CCtrlGpioDO
  | 0, _ => some self
  | left + 1, i => do
      let pin ← self.mPPins.get? i.toNat
      let self := { self with gpio := self.gpio.rtPinWrite pin (self.getDO i) }
      outputPins self left (i + 1)

def outputDO (self : CCtrlGpioDO) (idx : UInt8) : Option CCtrlGpioDO :=
  let i := if 0xFF = idx then 0 else idx
  let num := if 0xFF = idx then self.mNum else idx + 1
  if self.mNum < num then some self
  else self.outputPins (num.toNat - i.toNat) i

end CCtrlGpioDO

/-! ### Initialisation -/

/-- What `init` finds in its environment: the answer to its allocation and the
half-words it reads through a null `pPinList`. -/
structure InitCalls where
  malloc : Option (Nat → UInt16)
  atNull : Nat → UInt16

namespace CCtrlGpioDO

/-- The loop of `init` with `left` passes to go. -/
def initPins (pPinList : Option (List UInt16)) (pIniList : Option (List UInt8))
    (atNull : Nat → UInt16) (self : CCtrlGpioDO) : Nat → UInt8 → Option CCtrlGpioDO
  | 0, _ => some self
  | left + 1, i => do
      let pin ← match pPinList with
        | some list => list[i.toNat]?
        | none => some (atNull i.toNat)
      let cells ← self.mPPins.set? i.toNat pin
      let self := { self with mPPins := cells, gpio := self.gpio.rtPinMode pin .output }
      let state ← match pIniList with
        | some list => list[i.toNat]?
        | none => some PinLevel.high.toState
      let self ← self.setRtDO i state
      initPins pPinList pIniList atNull self left (i + 1)

/-- The first test is `pPinList != RT_NULL`: a list that is there ends the call. -/
def init (self : CCtrlGpioDO) (pPinList : Option (List UInt16)) (pIniList : Option (List UInt8))
    (num : UInt8) (calls : InitCalls) : Option CCtrlGpioDO :=
  if pPinList ≠ none then some self
  else
    let self :=
      if self.mPPins ≠ .null then { self with mNum := 0, mDoSet := 0, mPPins := .freed }
      else self
    let self := { self with mPPins := .malloc calls.malloc num.toNat }
    if self.mPPins ≠ .null then
      initPins pPinList pIniList calls.atNull { self with mNum := num } num.toNat 0
    else some self

end CCtrlGpioDO

/-! ### Bits of the cached word -/

theorem getLsbD_idxBit (idx : UInt8) {j : Nat} (inside : j < 32) :
    (idxBit idx).getLsbD j = decide (j = idx.toNat) := by
  rw [idxBit, ← BitVec.twoPow_eq, BitVec.getLsbD_twoPow]
  grind

theorem getLsbD_raiseBit (doSet : BitVec 16) (idx : UInt8) (j : Nat) :
    (raiseBit doSet idx).getLsbD j =
      (doSet.getLsbD j || (decide (j < 16) && decide (j = idx.toNat))) := by
  by_cases inside : j < 16
  · rw [raiseBit, BitVec.getLsbD_setWidth, BitVec.getLsbD_or, BitVec.getLsbD_setWidth,
      getLsbD_idxBit idx (by omega)]
    grind
  · simp [inside, BitVec.getLsbD_of_ge _ j (show 16 ≤ j by omega)]

theorem getLsbD_clearBit (doSet : BitVec 16) (idx : UInt8) (j : Nat) :
    (clearBit doSet idx).getLsbD j = (doSet.getLsbD j && ! decide (j = idx.toNat)) := by
  by_cases inside : j < 16
  · rw [clearBit, BitVec.getLsbD_setWidth, BitVec.getLsbD_and, BitVec.getLsbD_not,
      BitVec.getLsbD_setWidth, getLsbD_idxBit idx (by omega)]
    grind
  · simp [BitVec.getLsbD_of_ge _ j (show 16 ≤ j by omega)]

theorem getLsbD_commandBit_of_ne (doSet : BitVec 16) {idx : UInt8} (level : PinLevel) {j : Nat}
    (other : j ≠ idx.toNat) :
    (commandBit doSet idx level).getLsbD j = doSet.getLsbD j := by
  cases level <;> simp [commandBit, getLsbD_clearBit, getLsbD_raiseBit, other]

/-- Commanding one output sets its bit and leaves the others. -/
theorem ofBit_commandBit (doSet : BitVec 16) (idx : UInt8) (level : PinLevel) {j : Nat}
    (inside : j < 16) :
    PinLevel.ofBit ((commandBit doSet idx level).getLsbD j) =
      if idx.toNat = j then level else PinLevel.ofBit (doSet.getLsbD j) := by
  by_cases named : idx.toNat = j
  · subst named
    cases level with
    | low =>
        rw [if_pos rfl, commandBit, getLsbD_clearBit, decide_eq_true rfl, Bool.not_true,
          Bool.and_false, PinLevel.ofBit]
    | high =>
        rw [if_pos rfl, commandBit, getLsbD_raiseBit, decide_eq_true inside, decide_eq_true rfl,
          Bool.and_self, Bool.or_true, PinLevel.ofBit]
  · rw [getLsbD_commandBit_of_ne doSet level (Ne.symm named), if_neg named]

/-- The word that commands every output to one level. -/
def wordOf : PinLevel → BitVec 16
  | .low => 0
  | .high => 0xFFFF

theorem ofBit_wordOf (level : PinLevel) {j : Nat} (inside : j < 16) :
    PinLevel.ofBit ((wordOf level).getLsbD j) = level := by
  cases level with
  | low => simp [wordOf, PinLevel.ofBit]
  | high =>
      have every : wordOf .high = BitVec.allOnes 16 := by decide
      rw [every, BitVec.getLsbD_allOnes, decide_eq_true inside, PinLevel.ofBit]

/-- Testing a word with `1 << idx` asks for the bit at the index. -/
theorem ite_and_idxBit (word : BitVec 16) (idx : UInt8) :
    (if word.setWidth 32 &&& idxBit idx ≠ 0 then PinLevel.high else PinLevel.low) =
      PinLevel.ofBit (word.getLsbD idx.toNat) := by
  have wide : (word.setWidth 32).getLsbD idx.toNat = word.getLsbD idx.toNat := by
    rw [BitVec.getLsbD_setWidth]
    by_cases inside : idx.toNat < 16
    · simp [show idx.toNat < 32 by omega]
    · simp [BitVec.getLsbD_of_ge _ idx.toNat (show 16 ≤ idx.toNat by omega)]
  rw [idxBit, ← BitVec.twoPow_eq, BitVec.and_twoPow, wide]
  cases set : word.getLsbD idx.toNat with
  | false => rfl
  | true =>
      have low : idx.toNat < 16 := by
        apply Decidable.byContradiction
        intro high
        rw [BitVec.getLsbD_of_ge _ _ (by omega)] at set
        exact Bool.noConfusion set
      have nonzero : BitVec.twoPow 32 idx.toNat ≠ 0#32 := by
        intro zero
        have bit := congrArg (fun value => value.getLsbD idx.toNat) zero
        simp only [BitVec.getLsbD_twoPow, BitVec.getLsbD_zero] at bit
        grind
      exact if_pos nonzero

/-- The cached command of an output is the bit at its index. -/
theorem CCtrlGpioDO.getDO_eq_ofBit (self : CCtrlGpioDO) (idx : UInt8) :
    self.getDO idx = PinLevel.ofBit (self.mDoSet.getLsbD idx.toNat) :=
  ite_and_idxBit self.mDoSet idx

/-! ### Single commands -/

/-- The three cases of a cached command: all outputs, one of them, none. -/
theorem CCtrlGpioDO.setDO_all (self : CCtrlGpioDO) (state : UInt8) :
    self.setDO 0xFF state = { self with mDoSet := wordOf (.ofState state) } := by
  rw [CCtrlGpioDO.setDO, if_pos rfl, PinLevel.ofState]
  split <;> rfl

theorem CCtrlGpioDO.setDO_of_lt (self : CCtrlGpioDO) {idx state : UInt8} (single : idx ≠ 0xFF)
    (inside : idx < self.mNum) :
    self.setDO idx state =
      { self with mDoSet := commandBit self.mDoSet idx (.ofState state) } := by
  rw [CCtrlGpioDO.setDO, if_neg (Ne.symm single), if_pos inside, PinLevel.ofState]
  split <;> rfl

theorem CCtrlGpioDO.setDO_of_not_lt (self : CCtrlGpioDO) {idx state : UInt8}
    (single : idx ≠ 0xFF) (outside : ¬ idx < self.mNum) : self.setDO idx state = self := by
  rw [CCtrlGpioDO.setDO, if_neg (Ne.symm single), if_neg outside]

theorem CCtrlGpioDO.drive_of_found {object : CCtrlGpioDO} {pin : UInt16} {idx : UInt8}
    (found : object.mPPins.get? idx.toNat = some pin) (level : PinLevel) :
    object.drive idx level = some { object with
      mDoSet := commandBit object.mDoSet idx level
      gpio := object.gpio.rtPinWrite pin level } := by
  rw [CCtrlGpioDO.drive, found]
  rfl

theorem CCtrlGpioDO.setRtDO_eq (self : CCtrlGpioDO) (idx state : UInt8) :
    self.setRtDO idx state =
      if self.mNum ≤ idx then some self else self.drive idx (PinLevel.ofState state) := by
  unfold CCtrlGpioDO.setRtDO PinLevel.ofState
  split
  · rfl
  · split <;> rfl

theorem CCtrlGpioDO.setRtDO_of_found {object : CCtrlGpioDO} {pin : UInt16} {idx : UInt8}
    (inside : idx < object.mNum) (found : object.mPPins.get? idx.toNat = some pin)
    (state : UInt8) :
    object.setRtDO idx state = some { object with
      mDoSet := commandBit object.mDoSet idx (.ofState state)
      gpio := object.gpio.rtPinWrite pin (.ofState state) } := by
  rw [CCtrlGpioDO.setRtDO_eq, if_neg (UInt8.not_le.mpr inside), CCtrlGpioDO.drive_of_found found]

@[simp]
theorem PinLevel.ofState_toState (level : PinLevel) : PinLevel.ofState level.toState = level := by
  cases level <;> rfl

end RttIctl.Bsp
