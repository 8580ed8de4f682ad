import RttIctl.Bsp.Dio

/-!
Owns the LED sequences of `bspLed.cpp`: the blink records, every operation of
`CCtrlLED`, and what the two `init` functions leave behind. Both return with
the object as it was whenever they are given a pin list, so an object is
initialised after the call exactly when it was before.

It does not own the blink timing.
-/

namespace RttIctl.Bsp

open Lib

/-! ### Blink records -/

/-- `BSP_LED_ON`; the LEDs are active low. -/
def bspLedOn : PinLevel := .low

/-- `BSP_LED_OFF`. -/
def bspLedOff : PinLevel := .high

/-- `led_blink_struct`. -/
structure LedBlink where
  onTick : UInt32
  offTick : UInt32
  lstSysTick : UInt32
  tick : UInt32
  trig : UInt8
  deriving DecidableEq, Repr

/-- A record cleared by `rt_memset`. -/
def LedBlink.zeroed : LedBlink where
  onTick := 0
  offTick := 0
  lstSysTick := 0
  tick := 0
  trig := 0

/-- `rt_tick_from_millisecond` at 1000 ticks a second. The argument arrives as a
signed number; a negative one means for ever. -/
def rtTickFromMillisecond (ms : UInt32) : UInt32 :=
  if 0x80000000 ≤ ms then 0xFFFFFFFF
  else 1000 * (ms / 1000) + (1000 * (ms % 1000) + 999) / 1000

/-! ### CCtrlLED -/

/-- A `CCtrlLED` object: the outputs it inherits and its blink records. -/
structure CCtrlLED extends CCtrlGpioDO where
  mPLed : Block LedBlink

/-- The constructor. -/
def CCtrlLED.fresh (gpio : Gpio) : CCtrlLED where
  toCCtrlGpioDO := .fresh gpio
  mPLed := .null

namespace CCtrlLED

/-- An inherited operation, with the blink records untouched. -/
def inherited (self : CCtrlLED) (operation : CCtrlGpioDO → Option CCtrlGpioDO) :
    Option CCtrlLED := do
  let base ← operation self.toCCtrlGpioDO
  some { self with toCCtrlGpioDO := base }

/-- `init`: new records, cleared, and the inherited `init` only when there are
records. -/
def init (self : CCtrlLED) (pPinList : Option (List UInt16)) (pIniList : Option (List UInt8))
    (num : UInt8) (malloc : Option (Nat → LedBlink)) (calls : InitCalls) : Option CCtrlLED :=
  let self := if self.mPLed ≠ .null then { self with mPLed := .freed } else self
  let self := { self with mPLed := .malloc malloc num.toNat }
  if self.mPLed ≠ .null then
    let self := { self with mPLed := .live (List.replicate num.toNat LedBlink.zeroed) }
    self.inherited fun base => base.init pPinList pIniList num calls
  else some self

def blinkOn (self : CCtrlLED) (idx : UInt8) (onms offms rtTickGet : UInt32) : Option CCtrlLED :=
  if self.mNum ≤ idx then some self
  else do
    let cells ← self.mPLed.set? idx.toNat
      { onTick := rtTickFromMillisecond onms
        offTick := rtTickFromMillisecond offms
        lstSysTick := rtTickGet
        tick := 0
        trig := 1 }
    some { self with mPLed := cells }

def blinkOff (self : CCtrlLED) (idx : UInt8) : Option CCtrlLED :=
  if self.mNum ≤ idx then some self
  else do
    let record ← self.mPLed.get? idx.toNat
    let turnoff := record.onTick ≠ 0 ∧ record.offTick ≠ 0
    let cells ← self.mPLed.set? idx.toNat LedBlink.zeroed
    let self := { self with mPLed := cells }
    if turnoff then self.inherited fun base => base.setRtDO idx bspLedOff.toState
    else some self

/-- Stop blinking and hold a level, as `on` and `off` do with their own level. -/
def steady (self : CCtrlLED) (idx : UInt8) (level : PinLevel) : Option CCtrlLED :=
  if self.mNum ≤ idx then some self
  else do
    let self ← self.blinkOff idx
    self.inherited fun base => base.setRtDO idx level.toState

def on (self : CCtrlLED) (idx : UInt8) : Option CCtrlLED :=
  self.steady idx bspLedOn

def off (self : CCtrlLED) (idx : UInt8) : Option CCtrlLED :=
  self.steady idx bspLedOff

def toggle (self : CCtrlLED) (idx : UInt8) : Option CCtrlLED :=
  if self.mNum ≤ idx then some self
  else do
    let self ← self.blinkOff idx
    self.inherited fun base => base.toggleDO idx

/-- The level a blinking LED goes to, from its level and its record after the
elapsed ticks were added. -/
def nextStatus (record : LedBlink) (status : PinLevel) : PinLevel :=
  if bspLedOn = status then
    if 0 ≠ record.offTick ∧ (record.trig ≠ 0 ∨ record.onTick < record.tick) then bspLedOff
    else status
  else if 0 ≠ record.onTick ∧ (record.trig ≠ 0 ∨ record.offTick < record.tick) then bspLedOn
  else status

/-- One pass of the loop of `outputDO`. -/
def outputPass (self : CCtrlLED) (i : UInt8) (systick : UInt32) : Option CCtrlLED := do
  let record ← self.mPLed.get? i.toNat
  let self ←
    if record.onTick = 0 ∧ record.offTick = 0 then self.inherited fun base => base.outputDO i
    else some self
  if systick < record.lstSysTick then
    let cells ← self.mPLed.set? i.toNat { record with lstSysTick := systick, tick := 0 }
    some { self with mPLed := cells }
  else
    let record := { record with tick := record.tick + (systick - record.lstSysTick) }
    let status ← self.getRtDO i
    let next := nextStatus record status
    let self ←
      if next ≠ status then self.inherited fun base => base.setRtDO i next.toState
      else some self
    let tick := if next ≠ status then 0 else record.tick
    let cells ← self.mPLed.set? i.toNat
      { record with tick := tick, lstSysTick := systick, trig := 0 }
    some { self with mPLed := cells }

/-- The loop of `outputDO` with `left` passes to go. -/
def outputLeds (self : CCtrlLED) (systick : UInt32) : Nat → UInt8 → Option CCtrlLED
  | 0, _ => some self
  | left + 1, i => do
      let self ← self.outputPass i systick
      outputLeds self systick left (i + 1)

/-- Unlike the inherited `outputDO` there is no test of the index against
`m_num`. -/
def outputDO (self : CCtrlLED) (idx : UInt8) (systick : UInt32) : Option CCtrlLED :=
  let i := if 0xFF = idx then 0 else idx
  let num := if 0xFF = idx then self.mNum else idx + 1
  self.outputLeds systick (num.toNat - i.toNat) i

end CCtrlLED

/-! ### What an initialised object is -/

/-- The level `init` is asked to start output `i` with. -/
def iniLevel (pIniList : Option (List UInt8)) (i : Nat) : PinLevel :=
  match pIniList with
  | some list => .ofState (list.getD i 0)
  | none => .high

/-- An object set up for `num` outputs on the pins of a list: the array and its
length, every pin an output at its initial level, every cached bit that level. -/
structure Initialised (object : CCtrlGpioDO) (pins : List UInt16)
    (pIniList : Option (List UInt8)) (num : UInt8) : Prop where
  count : object.mNum = num
  array : object.mPPins = .live pins
  modes : ∀ pin ∈ pins, object.gpio.mode pin = .output
  levels : ∀ i (inside : i < pins.length), object.gpio.level pins[i] = iniLevel pIniList i
  cached : ∀ i < min pins.length 16, .ofBit (object.mDoSet.getLsbD i) = iniLevel pIniList i

/-- The level of the pin of output `idx` after a command. -/
def LeavesAt (result : Option CCtrlLED) (pin : UInt16) (level : PinLevel) : Prop :=
  ∃ after, result = some after ∧ after.gpio.level pin = level

/-- An LED object set up the same way, with cleared records, whose commands on
its outputs take effect. -/
structure LedInitialised (object : CCtrlLED) (pins : List UInt16)
    (pIniList : Option (List UInt8)) (num : UInt8) : Prop where
  base : Initialised object.toCCtrlGpioDO pins pIniList num
  records : object.mPLed = .live (List.replicate num.toNat LedBlink.zeroed)
  commands : ∀ idx < num, ∃ pin, pins[idx.toNat]? = some pin ∧
    LeavesAt (object.on idx) pin bspLedOn ∧ LeavesAt (object.off idx) pin bspLedOff ∧
      ∀ onms offms now, ∃ after, object.blinkOn idx onms offms now = some after ∧
        after.mPLed.get? idx.toNat =
          some ⟨rtTickFromMillisecond onms, rtTickFromMillisecond offms, now, 0, 1⟩

variable {pins : List UInt16} {pIniList : Option (List UInt8)} {num : UInt8}

/-- A list that is there ends the call at once. -/
theorem CCtrlGpioDO.init_some (self : CCtrlGpioDO) (pins : List UInt16)
    (pIniList : Option (List UInt8)) (num : UInt8) (calls : InitCalls) :
    self.init (some pins) pIniList num calls = some self :=
  if_pos (Option.some_ne_none pins)

/-- With memory for the records, the LED `init` clears them and changes nothing
else. -/
theorem CCtrlLED.init_some (self : CCtrlLED) (pins : List UInt16)
    (pIniList : Option (List UInt8)) (calls : InitCalls) (content : Nat → LedBlink)
    (nonempty : num ≠ 0) :
    self.init (some pins) pIniList num (some content) calls =
      some { self with mPLed := .live (List.replicate num.toNat LedBlink.zeroed) } := by
  have positive : num.toNat ≠ 0 := fun zero => nonempty (UInt8.toNat_inj.mp zero)
  have allocated : Block.malloc (some content) num.toNat ≠ .null := by
    rw [Block.malloc, if_neg positive]
    simp
  unfold init
  simp only [allocated, ne_eq, not_false_eq_true, if_true]
  rw [inherited]
  simp only [CCtrlGpioDO.init_some]
  split <;> rfl

/-- Without memory for the records, the LED `init` loses them and changes nothing
else. -/
theorem CCtrlLED.init_refused (self : CCtrlLED) (pPinList : Option (List UInt16))
    (pIniList : Option (List UInt8)) {malloc : Option (Nat → LedBlink)} (calls : InitCalls)
    (refused : num = 0 ∨ malloc = none) :
    self.init pPinList pIniList num malloc calls = some { self with mPLed := .null } := by
  have lost : Block.malloc malloc num.toNat = .null :=
    Block.malloc_refused (refused.imp_left (congrArg UInt8.toNat))
  unfold init
  split <;> simp only [lost, ne_eq, not_true_eq_false, if_false]

/-- An inherited immediate command on an output of the sequence. -/
theorem CCtrlLED.inherited_setRtDO (object : CCtrlLED) {idx : UInt8} {pin : UInt16}
    (inside : idx < object.mNum) (found : object.mPPins.get? idx.toNat = some pin)
    (level : PinLevel) :
    (object.inherited fun base => base.setRtDO idx level.toState) =
      some { object with
        mDoSet := commandBit object.mDoSet idx level
        gpio := object.gpio.rtPinWrite pin level } := by
  rw [inherited, CCtrlGpioDO.setRtDO_of_found inside found, PinLevel.ofState_toState]
  rfl

/-- Whatever the record says, `blinkOff` on an output of the sequence returns
and keeps the pin array in place. -/
theorem CCtrlLED.blinkOff_returns {object : CCtrlLED} {records : List LedBlink} {idx : UInt8}
    {pin : UInt16} (inside : idx < object.mNum)
    (found : object.mPPins.get? idx.toNat = some pin)
    (recorded : object.mPLed = .live records) (range : idx.toNat < records.length) :
    ∃ after, object.blinkOff idx = some after ∧ after.mNum = object.mNum ∧
      after.mPPins = object.mPPins := by
  have cleared : object.blinkOff idx =
      if records[idx.toNat].onTick ≠ 0 ∧ records[idx.toNat].offTick ≠ 0 then
        inherited { object with mPLed := .live (records.set idx.toNat LedBlink.zeroed) }
          fun base => base.setRtDO idx bspLedOff.toState
      else some { object with mPLed := .live (records.set idx.toNat LedBlink.zeroed) } := by
    rw [blinkOff, if_neg (UInt8.not_le.mpr inside), recorded, Block.get?_live range,
      Option.bind_eq_bind, Option.bind_some, Block.set?_live range]
    rfl
  rw [cleared]
  split
  · have silenced := inherited_setRtDO
      { object with mPLed := .live (records.set idx.toNat LedBlink.zeroed) } inside found bspLedOff
    exact ⟨_, silenced, rfl, rfl⟩
  · exact ⟨_, rfl, rfl, rfl⟩

/-- `on` and `off` leave the pin at their level. -/
theorem CCtrlLED.steady_leavesAt {object : CCtrlLED} {records : List LedBlink} {idx : UInt8}
    {pin : UInt16} (inside : idx < object.mNum)
    (found : object.mPPins.get? idx.toNat = some pin)
    (recorded : object.mPLed = .live records) (range : idx.toNat < records.length)
    (level : PinLevel) : LeavesAt (object.steady idx level) pin level := by
  obtain ⟨quiet, stopped, sameNum, samePins⟩ := blinkOff_returns inside found recorded range
  have ran : object.steady idx level =
      quiet.inherited fun base => base.setRtDO idx level.toState := by
    rw [steady, if_neg (UInt8.not_le.mpr inside), stopped]
    rfl
  rw [inherited_setRtDO quiet (sameNum ▸ inside) (samePins ▸ found) level] at ran
  exact ⟨_, ran, if_pos rfl⟩

theorem ledInitialised_iff {object : CCtrlLED} (counted : pins.length = num.toNat)
    (records : object.mPLed = .live (List.replicate num.toNat LedBlink.zeroed)) :
    LedInitialised object pins pIniList num ↔
      Initialised object.toCCtrlGpioDO pins pIniList num := by
  refine ⟨LedInitialised.base, fun base => ⟨base, records, fun idx inside => ?_⟩⟩
  have range : idx.toNat < pins.length := by
    rw [counted]
    exact UInt8.lt_iff_toNat_lt.mp inside
  have recordRange : idx.toNat < (List.replicate num.toNat LedBlink.zeroed).length := by
    rw [List.length_replicate, ← counted]
    exact range
  have named : idx < object.mNum := by
    rw [base.count]
    exact inside
  have found : object.mPPins.get? idx.toNat = some pins[idx.toNat] := by
    rw [base.array, Block.get?_live range]
  refine ⟨pins[idx.toNat], List.getElem?_eq_getElem range,
    CCtrlLED.steady_leavesAt named found records recordRange bspLedOn,
    CCtrlLED.steady_leavesAt named found records recordRange bspLedOff, fun onms offms now => ?_⟩
  have started : object.blinkOn idx onms offms now = some { object with
      mPLed := .live ((List.replicate num.toNat LedBlink.zeroed).set idx.toNat
        ⟨rtTickFromMillisecond onms, rtTickFromMillisecond offms, now, 0, 1⟩) } := by
    rw [CCtrlLED.blinkOn, if_neg (UInt8.not_le.mpr named), records, Block.set?_live recordRange]
    rfl
  exact ⟨_, started, List.getElem?_set_self recordRange⟩

/-- Called with a pin list and given its memory, `init` returns; the object is
then initialised exactly when it already was, for outputs and for LEDs alike,
and one that comes from its constructor never is. -/
theorem init_initialises_iff (object : CCtrlGpioDO) (led : CCtrlLED) (pins : List UInt16)
    (pIniList : Option (List UInt8)) (num : UInt8) (calls : InitCalls)
    (content : Nat → LedBlink) (counted : pins.length = num.toNat) (nonempty : num ≠ 0) :
    ∃ after ledAfter,
      object.init (some pins) pIniList num calls = some after ∧
      led.init (some pins) pIniList num (some content) calls = some ledAfter ∧
      (Initialised after pins pIniList num ↔ Initialised object pins pIniList num) ∧
      (LedInitialised ledAfter pins pIniList num ↔
        Initialised led.toCCtrlGpioDO pins pIniList num) ∧
      (∀ gpio, object = .fresh gpio → ¬ Initialised after pins pIniList num) ∧
      ∀ gpio, led = .fresh gpio → ¬ LedInitialised ledAfter pins pIniList num := by
  have empty : ∀ gpio, ¬ Initialised (.fresh gpio) pins pIniList num := by
    intro gpio initialised
    exact nonempty initialised.count.symm
  refine ⟨object, _, object.init_some pins pIniList num calls,
    led.init_some pins pIniList calls content nonempty, Iff.rfl, ?_, ?_, ?_⟩
  · exact ledInitialised_iff counted rfl
  · rintro gpio rfl
    exact empty gpio
  · rintro gpio rfl initialised
    exact empty gpio initialised.base

/-- One output on pin 40 from an object fresh from its constructor: the array is
still missing after `init`. -/
theorem init_leaves_fresh_output :
    ¬ ∃ after, (CCtrlGpioDO.fresh ⟨fun _ => .input, fun _ => .low⟩).init (some [40]) none 1
      ⟨some fun _ => 0, fun _ => 0⟩ = some after ∧ Initialised after [40] none 1 := by
  rintro ⟨after, ran, initialised⟩
  rw [CCtrlGpioDO.init_some, Option.some.injEq] at ran
  have count := initialised.count
  rw [← ran] at count
  exact absurd count (by decide)

/-- The same output and a fresh LED on it, through the general statement. -/
theorem fresh_init_initialises_iff :
    ∃ after ledAfter,
      (CCtrlGpioDO.fresh ⟨fun _ => .input, fun _ => .low⟩).init (some [40]) none 1
        ⟨some fun _ => 0, fun _ => 0⟩ = some after ∧
      (CCtrlLED.fresh ⟨fun _ => .input, fun _ => .low⟩).init (some [40]) none 1
        (some fun _ => LedBlink.zeroed) ⟨some fun _ => 0, fun _ => 0⟩ = some ledAfter ∧
      ¬ Initialised after [40] none 1 ∧ ¬ LedInitialised ledAfter [40] none 1 := by
  obtain ⟨after, ledAfter, ran, ledRan, _, _, unset, ledUnset⟩ :=
    init_initialises_iff (.fresh ⟨fun _ => .input, fun _ => .low⟩)
      (.fresh ⟨fun _ => .input, fun _ => .low⟩) [40] none 1 ⟨some fun _ => 0, fun _ => 0⟩
      (fun _ => LedBlink.zeroed) rfl (by decide)
  exact ⟨after, ledAfter, ran, ledRan, unset _ rfl, ledUnset _ rfl⟩

end RttIctl.Bsp
