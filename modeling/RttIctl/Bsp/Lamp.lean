import RttIctl.Bsp.DoCache
import RttIctl.Bsp.Led

/-!
Owns the refinement of a `CCtrlLED` object to a row of independent lamps. A lamp
is what the object keeps about one LED: its blink record, its cached bit and the
level of its pin. Every operation returns, keeps the object in order, and acts
on the lamps it names as `LedCall.act` says; the others stay as they are.

It does not own what holds over sequences of operations.
-/

namespace RttIctl.Bsp

open Lib

/-! ### Operations -/

/-- The operations of an LED object, inherited commands included. -/
inductive LedCall
  | setDO (idx state : UInt8)
  | setRtDO (idx state : UInt8)
  | toggleDO (idx : UInt8)
  | blinkOn (idx : UInt8) (onms offms rtTickGet : UInt32)
  | blinkOff (idx : UInt8)
  | on (idx : UInt8)
  | off (idx : UInt8)
  | toggle (idx : UInt8)
  | outputDO (idx : UInt8) (systick : UInt32)
  deriving DecidableEq, Repr

namespace LedCall

def run (self : CCtrlLED) : LedCall → Option CCtrlLED
  | .setDO idx state => self.inherited fun base => some (base.setDO idx state)
  | .setRtDO idx state => self.inherited fun base => base.setRtDO idx state
  | .toggleDO idx => self.inherited fun base => base.toggleDO idx
  | .blinkOn idx onms offms rtTickGet => self.blinkOn idx onms offms rtTickGet
  | .blinkOff idx => self.blinkOff idx
  | .on idx => self.on idx
  | .off idx => self.off idx
  | .toggle idx => self.toggle idx
  | .outputDO idx systick => self.outputDO idx systick

/-- Run a sequence of operations. -/
def runAll (self : CCtrlLED) (calls : List LedCall) : Option CCtrlLED :=
  calls.foldlM run self

/-- A command on LED `i`; polls are no commands. -/
def Names (i : Nat) : LedCall → Prop
  | .setDO idx _ => idx = 0xFF ∨ idx.toNat = i
  | .setRtDO idx _ => idx.toNat = i
  | .toggleDO idx => idx.toNat = i
  | .blinkOn idx _ _ _ => idx.toNat = i
  | .blinkOff idx => idx.toNat = i
  | .on idx => idx.toNat = i
  | .off idx => idx.toNat = i
  | .toggle idx => idx.toNat = i
  | .outputDO _ _ => False

/-- A poll has no test of its index: it is of one LED or of all of them. -/
def InRange (num : Nat) : LedCall → Prop
  | .outputDO idx _ => idx = 0xFF ∨ idx.toNat < num
  | _ => True

end LedCall

/-! ### Lamps -/

@[ext]
structure Lamp where
  record : LedBlink
  cached : PinLevel
  level : PinLevel
  deriving DecidableEq, Repr

namespace Lamp

/-- Pin and cached bit commanded together. -/
def drive (lamp : Lamp) (level : PinLevel) : Lamp := { lamp with cached := level, level := level }

def blinkOff (lamp : Lamp) : Lamp :=
  if lamp.record.onTick ≠ 0 ∧ lamp.record.offTick ≠ 0 then
    drive { lamp with record := .zeroed } bspLedOff
  else { lamp with record := .zeroed }

/-- The part of a poll before the tick is looked at: a lamp that does not blink
is brought up to its cached bit. -/
def output (lamp : Lamp) : Lamp :=
  if lamp.record.onTick = 0 ∧ lamp.record.offTick = 0 then { lamp with level := lamp.cached }
  else lamp

/-- The blink automaton on one lamp. -/
def blink (lamp : Lamp) (systick : UInt32) : Lamp :=
  if systick < lamp.record.lstSysTick then
    { lamp with record := { lamp.record with lstSysTick := systick, tick := 0 } }
  else
    let record :=
      { lamp.record with tick := lamp.record.tick + (systick - lamp.record.lstSysTick) }
    let next := CCtrlLED.nextStatus record lamp.level
    if next ≠ lamp.level then
      drive { lamp with record := { record with tick := 0, lstSysTick := systick, trig := 0 } } next
    else { lamp with record := { record with lstSysTick := systick, trig := 0 } }

def poll (lamp : Lamp) (systick : UInt32) : Lamp := lamp.output.blink systick

end Lamp

/-- What an operation does to lamp `i`. -/
def LedCall.act (i : Nat) (lamp : Lamp) : LedCall → Lamp
  | .setDO idx state =>
      if idx = 0xFF ∨ idx.toNat = i then { lamp with cached := .ofState state } else lamp
  | .setRtDO idx state => if idx.toNat = i then lamp.drive (.ofState state) else lamp
  | .toggleDO idx => if idx.toNat = i then lamp.drive lamp.level.toggled else lamp
  | .blinkOn idx onms offms rtTickGet =>
      if idx.toNat = i then
        { lamp with
          record := ⟨rtTickFromMillisecond onms, rtTickFromMillisecond offms, rtTickGet, 0, 1⟩ }
      else lamp
  | .blinkOff idx => if idx.toNat = i then lamp.blinkOff else lamp
  | .on idx => if idx.toNat = i then lamp.blinkOff.drive bspLedOn else lamp
  | .off idx => if idx.toNat = i then lamp.blinkOff.drive bspLedOff else lamp
  | .toggle idx => if idx.toNat = i then lamp.blinkOff.drive lamp.blinkOff.level.toggled else lamp
  | .outputDO idx systick => if idx = 0xFF ∨ idx.toNat = i then lamp.poll systick else lamp

/-! ### The object and its lamps -/

/-- An LED object in order: `m_num` distinct pins, no more than the cache has
bits, and as many blink records. -/
structure LedWired (object : CCtrlLED) (pins : List UInt16) : Prop where
  base : Wired object.toCCtrlGpioDO pins
  records : ∃ records, object.mPLed = .live records ∧ records.length = pins.length

def CCtrlLED.lamp (self : CCtrlLED) (pins : List UInt16) (i : Fin pins.length) : Lamp where
  record := (self.mPLed.get? i).getD .zeroed
  cached := .ofBit (self.mDoSet.getLsbD i)
  level := self.gpio.level (pins.get i)

/-- The operation returns an object in order whose lamps are those of `act`. -/
def Acts (object : CCtrlLED) (pins : List UInt16) (act : Fin pins.length → Lamp → Lamp)
    (result : Option CCtrlLED) : Prop :=
  ∃ after, result = some after ∧ LedWired after pins ∧
    ∀ i, after.lamp pins i = act i (object.lamp pins i)

variable {object : CCtrlLED} {pins : List UInt16}

theorem Acts.bind {act next : Fin pins.length → Lamp → Lamp} {result : Option CCtrlLED}
    {rest : CCtrlLED → Option CCtrlLED} (first : Acts object pins act result)
    (second : ∀ middle, LedWired middle pins →
      (∀ i, middle.lamp pins i = act i (object.lamp pins i)) →
        Acts middle pins next (rest middle)) :
    Acts object pins (fun i lamp => next i (act i lamp)) (result.bind rest) := by
  obtain ⟨middle, ran, middleWired, middleLamps⟩ := first
  obtain ⟨after, finished, afterWired, afterLamps⟩ := second middle middleWired middleLamps
  refine ⟨after, by rw [ran]; exact finished, afterWired, fun i => ?_⟩
  rw [afterLamps, middleLamps]

theorem Acts.congr {act act' : Fin pins.length → Lamp → Lamp} {result : Option CCtrlLED}
    (acts : Acts object pins act result)
    (same : ∀ i, act i (object.lamp pins i) = act' i (object.lamp pins i)) :
    Acts object pins act' result := by
  obtain ⟨after, ran, wired, lamps⟩ := acts
  exact ⟨after, ran, wired, fun i => by rw [lamps, same]⟩

theorem LedWired.acts_id (wired : LedWired object pins) :
    Acts object pins (fun _ lamp => lamp) (some object) :=
  ⟨object, rfl, wired, fun _ => rfl⟩

/-- An inherited operation acts on cached bits and pins alone. -/
theorem LedWired.acts_inherited (wired : LedWired object pins)
    {access : Access (Fin pins.length) PinLevel}
    {operation : CCtrlGpioDO → Option CCtrlGpioDO}
    (carried : Carried object.toCCtrlGpioDO pins access (operation object.toCCtrlGpioDO)) :
    Acts object pins (fun i lamp =>
      { lamp with
        cached := ((object.view pins).apply access).cached i
        level := ((object.view pins).apply access).driven i }) (object.inherited operation) := by
  obtain ⟨base, ran, baseWired, view⟩ := carried
  refine ⟨{ object with toCCtrlGpioDO := base }, ?_, ⟨baseWired, wired.records⟩, fun i => ?_⟩
  · rw [CCtrlLED.inherited, ran]
    rfl
  · rw [← view]
    rfl

/-- A write of one blink record. -/
theorem LedWired.acts_setRecord (wired : LedWired object pins) {idx : UInt8}
    (inside : idx.toNat < pins.length) (record : LedBlink) :
    Acts object pins (fun i lamp => if idx.toNat = i then { lamp with record := record } else lamp)
      ((object.mPLed.set? idx.toNat record).bind fun cells =>
        some { object with mPLed := cells }) := by
  obtain ⟨records, live, length⟩ := wired.records
  have range : idx.toNat < records.length := by omega
  refine ⟨{ object with mPLed := .live (records.set idx.toNat record) }, ?_,
    ⟨wired.base, _, rfl, by rw [List.length_set, length]⟩, fun i => ?_⟩
  · rw [live, Block.set?_live range]
    rfl
  · by_cases named : idx.toNat = i
    · simp only [named, if_true]
      simp only [CCtrlLED.lamp, Block.get?, ← named, List.getElem?_set_self range, Option.getD_some]
    · simp only [named, if_false]
      simp only [CCtrlLED.lamp, Block.get?, List.getElem?_set_ne named, live]

theorem LedWired.record (wired : LedWired object pins) {idx : UInt8}
    (inside : idx.toNat < pins.length) :
    object.mPLed.get? idx.toNat = some (object.lamp pins ⟨idx.toNat, inside⟩).record := by
  obtain ⟨records, live, length⟩ := wired.records
  have range : idx.toNat < records.length := by omega
  simp only [CCtrlLED.lamp, live, Block.get?_live range, Option.getD_some]

/-- An index at or past `m_num` names no lamp. -/
theorem LedWired.not_named (wired : LedWired object pins) {idx : UInt8}
    (outside : object.mNum ≤ idx) (i : Fin pins.length) : idx.toNat ≠ i := by
  have bound : object.mNum.toNat ≤ idx.toNat := UInt8.le_iff_toNat_le.mp outside
  have := wired.base.count
  have := i.isLt
  omega

/-- An operation that returns at once on an index outside the sequence. -/
theorem LedWired.acts_outside (wired : LedWired object pins) {idx : UInt8}
    (outside : object.mNum ≤ idx) (act : Lamp → Lamp) :
    Acts object pins (fun i lamp => if idx.toNat = i then act lamp else lamp) (some object) := by
  apply wired.acts_id.congr
  intro i
  rw [if_neg (wired.not_named outside i)]

/-! ### Commands -/

theorem LedWired.acts_setDO (wired : LedWired object pins) (idx state : UInt8) :
    Acts object pins (fun i lamp => (LedCall.setDO idx state).act i lamp)
      (object.inherited fun base => some (base.setDO idx state)) := by
  apply (wired.acts_inherited (wired.base.carried_setDO idx state)).congr
  intro i
  simp only [DoCall.access, Bank.apply, LedCall.act, decide_eq_true_eq]
  split <;> rfl

theorem LedWired.acts_setRtDO (wired : LedWired object pins) (idx state : UInt8) :
    Acts object pins (fun i lamp => if idx.toNat = i then lamp.drive (.ofState state) else lamp)
      (object.inherited fun base => base.setRtDO idx state) := by
  apply (wired.acts_inherited (wired.base.carried_setRtDO idx state)).congr
  intro i
  simp only [DoCall.access, Bank.apply, decide_eq_true_eq]
  split <;> rfl

theorem LedWired.acts_toggleDO (wired : LedWired object pins) (idx : UInt8) :
    Acts object pins (fun i lamp => if idx.toNat = i then lamp.drive lamp.level.toggled else lamp)
      (object.inherited fun base => base.toggleDO idx) := by
  apply (wired.acts_inherited (wired.base.carried_toggleDO idx)).congr
  intro i
  simp only [DoCall.access, Bank.apply, decide_eq_true_eq]
  split <;> rfl

theorem LedWired.acts_blinkOn (wired : LedWired object pins) (idx : UInt8)
    (onms offms rtTickGet : UInt32) :
    Acts object pins (fun i lamp => (LedCall.blinkOn idx onms offms rtTickGet).act i lamp)
      (object.blinkOn idx onms offms rtTickGet) := by
  unfold CCtrlLED.blinkOn
  split
  · next outside => exact wired.acts_outside outside _
  · next inside => exact wired.acts_setRecord (wired.base.lt_of_not_le inside) _

theorem LedWired.acts_blinkOff (wired : LedWired object pins) (idx : UInt8) :
    Acts object pins (fun i lamp => if idx.toNat = i then lamp.blinkOff else lamp)
      (object.blinkOff idx) := by
  unfold CCtrlLED.blinkOff
  split
  · next outside => exact wired.acts_outside outside _
  · next inside =>
      have range := wired.base.lt_of_not_le inside
      rw [wired.record range, Option.bind_eq_bind, Option.bind_some]
      -- the record is cleared first, then a blinking lamp is switched off
      by_cases blinking : (object.lamp pins ⟨idx.toNat, range⟩).record.onTick ≠ 0 ∧
          (object.lamp pins ⟨idx.toNat, range⟩).record.offTick ≠ 0
      · have silenced := (wired.acts_setRecord range LedBlink.zeroed).bind
          fun middle middleWired _ => middleWired.acts_setRtDO idx bspLedOff.toState
        simp only [if_pos blinking, Option.bind_eq_bind]
        rw [Option.bind_assoc] at silenced
        apply silenced.congr
        intro i
        by_cases named : idx.toNat = i
        · obtain rfl : i = ⟨idx.toNat, range⟩ := Fin.ext named.symm
          simp only [if_true, Lamp.blinkOff, if_pos blinking, PinLevel.ofState_toState]
        · simp only [named, if_false]
      · have cleared := wired.acts_setRecord range LedBlink.zeroed
        simp only [if_neg blinking, Option.bind_eq_bind]
        apply cleared.congr
        intro i
        by_cases named : idx.toNat = i
        · obtain rfl : i = ⟨idx.toNat, range⟩ := Fin.ext named.symm
          simp only [if_true, Lamp.blinkOff, if_neg blinking]
        · simp only [named, if_false]

/-- `on` and `off`. -/
theorem LedWired.acts_steady (wired : LedWired object pins) (idx : UInt8) (level : PinLevel) :
    Acts object pins (fun i lamp => if idx.toNat = i then lamp.blinkOff.drive level else lamp)
      (object.steady idx level) := by
  unfold CCtrlLED.steady
  split
  · next outside => exact wired.acts_outside outside _
  · next inside =>
      have both := (wired.acts_blinkOff idx).bind
        fun middle middleWired _ => middleWired.acts_setRtDO idx level.toState
      apply both.congr
      intro i
      simp only [PinLevel.ofState_toState]
      split <;> rfl

theorem LedWired.acts_toggle (wired : LedWired object pins) (idx : UInt8) :
    Acts object pins (fun i lamp => (LedCall.toggle idx).act i lamp) (object.toggle idx) := by
  unfold CCtrlLED.toggle
  split
  · next outside => exact wired.acts_outside outside _
  · next inside =>
      have both := (wired.acts_blinkOff idx).bind
        fun middle middleWired _ => middleWired.acts_toggleDO idx
      apply both.congr
      intro i
      simp only [LedCall.act]
      split <;> rfl

/-! ### Polls -/

theorem LedWired.acts_output (wired : LedWired object pins) {idx : UInt8}
    (inside : idx.toNat < pins.length) :
    Acts object pins (fun i lamp => if idx.toNat = i then lamp.output else lamp)
      (if (object.lamp pins ⟨idx.toNat, inside⟩).record.onTick = 0 ∧
          (object.lamp pins ⟨idx.toNat, inside⟩).record.offTick = 0 then
        object.inherited fun base => base.outputDO idx
      else some object) := by
  have single : idx ≠ 0xFF := by
    rintro rfl
    have := wired.base.narrow
    exact absurd inside (by simp only [show (0xFF : UInt8).toNat = 255 from rfl]; omega)
  split
  · next quiet =>
      apply (wired.acts_inherited (wired.base.carried_outputDO idx)).congr
      intro i
      simp only [DoCall.access, Bank.apply, decide_eq_true_eq, single, false_or]
      by_cases named : idx.toNat = i
      · obtain rfl : i = ⟨idx.toNat, inside⟩ := Fin.ext named.symm
        simp only [if_true, Lamp.output, if_pos quiet]
        rfl
      · simp only [named, if_false]
        rfl
  · next blinking =>
      apply wired.acts_id.congr
      intro i
      by_cases named : idx.toNat = i
      · obtain rfl : i = ⟨idx.toNat, inside⟩ := Fin.ext named.symm
        simp only [if_true, Lamp.output, if_neg blinking]
      · simp only [named, if_false]

/-- How `do` reads a conditional statement followed by others. -/
theorem ite_some_bind {α β : Type} (c : Prop) [Decidable c] (first : Option α) (kept : α)
    (rest : α → Option β) :
    (if c then first else some kept).bind rest = if c then first.bind rest else rest kept := by
  split <;> rfl

/-- The second half of a pass, from the test of the tick on, with the record as
it was read at the start of the pass. -/
def CCtrlLED.blinkPass (self : CCtrlLED) (record : LedBlink) (i : UInt8) (systick : UInt32) :
    Option CCtrlLED :=
  if systick < record.lstSysTick then
    (self.mPLed.set? i.toNat { record with lstSysTick := systick, tick := 0 }).bind
      fun cells => some { self with mPLed := cells }
  else
    let ticked := { record with tick := record.tick + (systick - record.lstSysTick) }
    (self.getRtDO i).bind fun status =>
      let next := CCtrlLED.nextStatus ticked status
      (if next ≠ status then self.inherited fun base => base.setRtDO i next.toState
        else some self).bind fun self =>
        (self.mPLed.set? i.toNat
          { ticked with
            tick := if next ≠ status then 0 else ticked.tick
            lstSysTick := systick
            trig := 0 }).bind fun cells => some { self with mPLed := cells }

theorem CCtrlLED.outputPass_eq (self : CCtrlLED) {i : UInt8} {record : LedBlink}
    (found : self.mPLed.get? i.toNat = some record) (systick : UInt32) :
    self.outputPass i systick =
      (if record.onTick = 0 ∧ record.offTick = 0 then
        self.inherited fun base => base.outputDO i
      else some self).bind fun middle => middle.blinkPass record i systick := by
  simp only [outputPass, blinkPass, found, Option.bind_eq_bind, Option.bind_some,
    ite_some_bind]

theorem LedWired.acts_blinkPass (wired : LedWired object pins) {idx : UInt8}
    (inside : idx.toNat < pins.length) (systick : UInt32) {record : LedBlink}
    (isRecord : record = (object.lamp pins ⟨idx.toNat, inside⟩).record) :
    Acts object pins (fun i lamp => if idx.toNat = i then lamp.blink systick else lamp)
      (object.blinkPass record idx systick) := by
  unfold CCtrlLED.blinkPass
  subst isRecord
  split
  · next wrapped =>
      apply (wired.acts_setRecord inside _).congr
      intro i
      by_cases named : idx.toNat = i
      · obtain rfl : i = ⟨idx.toNat, inside⟩ := Fin.ext named.symm
        simp only [if_true, Lamp.blink, if_pos wrapped]
      · simp only [named, if_false]
  · next forward =>
      have status : object.getRtDO idx = some (object.lamp pins ⟨idx.toNat, inside⟩).level := by
        rw [CCtrlGpioDO.getRtDO, wired.base.found inside]
        rfl
      rw [status, Option.bind_some]
      dsimp only
      split
      · next changes =>
          refine Acts.congr (Acts.bind (wired.acts_setRtDO idx _)
            fun middle middleWired _ => middleWired.acts_setRecord inside _) ?_
          intro i
          by_cases named : idx.toNat = i
          · obtain rfl : i = ⟨idx.toNat, inside⟩ := Fin.ext named.symm
            simp only [if_true, Lamp.blink, if_neg forward, if_pos changes,
              PinLevel.ofState_toState, Lamp.drive]
          · simp only [named, if_false]
      · next stays =>
          rw [Option.bind_some]
          apply (wired.acts_setRecord inside _).congr
          intro i
          by_cases named : idx.toNat = i
          · obtain rfl : i = ⟨idx.toNat, inside⟩ := Fin.ext named.symm
            simp only [if_true, Lamp.blink, if_neg forward, if_neg stays]
          · simp only [named, if_false]

theorem LedWired.acts_outputPass (wired : LedWired object pins) {idx : UInt8}
    (inside : idx.toNat < pins.length) (systick : UInt32) :
    Acts object pins (fun i lamp => if idx.toNat = i then lamp.poll systick else lamp)
      (object.outputPass idx systick) := by
  rw [object.outputPass_eq (wired.record inside)]
  have both := (wired.acts_output inside).bind fun middle middleWired middleLamps =>
    have kept : (object.lamp pins ⟨idx.toNat, inside⟩).record =
        (middle.lamp pins ⟨idx.toNat, inside⟩).record := by
      rw [middleLamps, if_pos rfl, Lamp.output]
      split <;> rfl
    middleWired.acts_blinkPass inside systick kept
  apply both.congr
  intro i
  by_cases named : idx.toNat = i
  · simp only [named, if_true, Lamp.poll]
  · simp only [named, if_false]

/-- The loop of a poll runs over the lamps from `first` on. -/
theorem LedWired.acts_outputLeds (wired : LedWired object pins) (systick : UInt32) {left : Nat}
    {first : UInt8} (inside : first.toNat + left ≤ pins.length) :
    Acts object pins
      (fun i lamp =>
        if first.toNat ≤ i ∧ (i : Nat) < first.toNat + left then lamp.poll systick else lamp)
      (object.outputLeds systick left first) := by
  induction left generalizing object first with
  | zero =>
      apply wired.acts_id.congr
      intro i
      rw [if_neg (by omega)]
  | succ left inductionHypothesis =>
      have narrow := wired.base.narrow
      have next : (first + 1).toNat = first.toNat + 1 := toNat_succ_of_lt (by omega)
      have both := (wired.acts_outputPass (show first.toNat < pins.length by omega) systick).bind
        fun middle middleWired _ => inductionHypothesis middleWired
          (show (first + 1).toNat + left ≤ pins.length by omega)
      apply both.congr
      intro i
      by_cases named : first.toNat = i
      · rw [if_pos named, if_neg (by omega), if_pos (by omega)]
      · rw [if_neg named]
        exact if_congr (by omega) rfl rfl

theorem CCtrlLED.outputDO_all (self : CCtrlLED) (systick : UInt32) :
    self.outputDO 0xFF systick = self.outputLeds systick self.mNum.toNat 0 := by
  simp [outputDO]

theorem CCtrlLED.outputDO_of_single (self : CCtrlLED) {idx : UInt8} (single : idx ≠ 0xFF)
    (systick : UInt32) : self.outputDO idx systick = self.outputLeds systick 1 idx := by
  have passes : (idx + 1).toNat - idx.toNat = 1 := by
    rw [toNat_succ_of_single single]
    omega
  simp only [outputDO, Ne.symm single, if_false, passes]

theorem LedWired.acts_outputDO (wired : LedWired object pins) {idx : UInt8} (systick : UInt32)
    (inRange : idx = 0xFF ∨ idx.toNat < pins.length) :
    Acts object pins (fun i lamp => (LedCall.outputDO idx systick).act i lamp)
      (object.outputDO idx systick) := by
  have narrow := wired.base.narrow
  by_cases all : idx = 0xFF
  · subst all
    have count := wired.base.count
    rw [object.outputDO_all]
    apply (wired.acts_outputLeds systick (by simp; omega)).congr
    intro i
    have covered : (0 : UInt8).toNat ≤ i ∧ (i : Nat) < (0 : UInt8).toNat + object.mNum.toNat := by
      have := i.isLt
      simp only [UInt8.toNat_zero]
      omega
    rw [if_pos covered, LedCall.act, if_pos (.inl rfl)]
  · have range := inRange.resolve_left all
    rw [object.outputDO_of_single all]
    apply (wired.acts_outputLeds systick (by omega)).congr
    intro i
    rw [LedCall.act]
    exact if_congr (by rw [or_iff_right all]; omega) rfl rfl

/-! ### Every operation, and sequences -/

theorem LedWired.acts_run (wired : LedWired object pins) {call : LedCall}
    (inRange : call.InRange pins.length) :
    Acts object pins (fun i lamp => call.act i lamp) (call.run object) := by
  cases call with
  | setDO idx state => exact wired.acts_setDO idx state
  | setRtDO idx state => exact wired.acts_setRtDO idx state
  | toggleDO idx => exact wired.acts_toggleDO idx
  | blinkOn idx onms offms rtTickGet => exact wired.acts_blinkOn idx onms offms rtTickGet
  | blinkOff idx => exact wired.acts_blinkOff idx
  | on idx => exact wired.acts_steady idx bspLedOn
  | off idx => exact wired.acts_steady idx bspLedOff
  | toggle idx => exact wired.acts_toggle idx
  | outputDO idx systick => exact wired.acts_outputDO systick inRange

/-- Every sequence of operations runs to its end, each lamp on its own. -/
theorem LedWired.acts_runAll (wired : LedWired object pins) {calls : List LedCall}
    (inRange : ∀ call ∈ calls, call.InRange pins.length) :
    Acts object pins (fun i lamp => calls.foldl (fun lamp call => call.act i lamp) lamp)
      (LedCall.runAll object calls) := by
  induction calls generalizing object with
  | nil => exact wired.acts_id
  | cons call rest inductionHypothesis =>
      obtain ⟨here, later⟩ := List.forall_mem_cons.mp inRange
      have both := (wired.acts_run here).bind
        fun middle middleWired _ => inductionHypothesis middleWired later
      exact both

/-- An operation that neither names nor polls a lamp leaves it. -/
theorem LedCall.act_of_not_names {i : Nat} {call : LedCall} (other : ¬ call.Names i)
    (lamp : Lamp) :
    call.act i lamp = lamp ∨ ∃ systick, call.act i lamp = lamp.poll systick := by
  cases call with
  | outputDO idx systick =>
      simp only [LedCall.act]
      split
      · exact .inr ⟨systick, rfl⟩
      · exact .inl rfl
  | setDO idx state => exact .inl (if_neg other)
  | setRtDO idx state => exact .inl (if_neg other)
  | toggleDO idx => exact .inl (if_neg other)
  | blinkOn idx onms offms rtTickGet => exact .inl (if_neg other)
  | blinkOff idx => exact .inl (if_neg other)
  | on idx => exact .inl (if_neg other)
  | off idx => exact .inl (if_neg other)
  | toggle idx => exact .inl (if_neg other)

/-- Two LEDs on pins 40 and 41: the first blinks and is lit, the second has a
cached command outstanding. -/
def twoLeds : CCtrlLED where
  mDoSet := 0b00
  mPPins := .live [40, 41]
  mNum := 2
  gpio := { mode := fun _ => .output, level := fun pin => if pin = 40 then .low else .high }
  mPLed := .live [⟨500, 300, 7, 20, 0⟩, .zeroed]

theorem twoLeds_wired : LedWired twoLeds [40, 41] :=
  ⟨⟨rfl, rfl, by decide, by decide⟩, _, rfl, rfl⟩

end RttIctl.Bsp
