import RttIctl.Bsp.Lamp

/-!
Owns steady LEDs: after `on` or `off` the cached bit, the pin and the blink
record of the LED agree on its level, whatever they were before, and polls and
operations on other LEDs keep that agreement until the next command on it.
-/

namespace RttIctl.Bsp

open Lib

/-- A lamp at rest: no blinking, and the pin and its cached bit at one level. -/
structure Lamp.Steady (lamp : Lamp) (level : PinLevel) : Prop where
  onTick : lamp.record.onTick = 0
  offTick : lamp.record.offTick = 0
  cached : lamp.cached = level
  level : lamp.level = level

namespace Lamp

variable {lamp : Lamp} {level : PinLevel}

/-- Whatever the lamp did before, `blinkOff` clears its record. -/
theorem blinkOff_record (lamp : Lamp) : lamp.blinkOff.record = .zeroed := by
  unfold blinkOff
  split <;> rfl

theorem steady_drive_blinkOff (lamp : Lamp) (level : PinLevel) :
    (lamp.blinkOff.drive level).Steady level where
  onTick := by rw [drive, blinkOff_record]; rfl
  offTick := by rw [drive, blinkOff_record]; rfl
  cached := rfl
  level := rfl

/-- Without blink times the automaton has nowhere to go. -/
theorem nextStatus_of_quiet (record : LedBlink) (onTick : record.onTick = 0)
    (offTick : record.offTick = 0) (status : PinLevel) :
    CCtrlLED.nextStatus record status = status := by
  simp [CCtrlLED.nextStatus, onTick, offTick]

/-- A poll leaves a steady lamp where it is, at every tick. -/
theorem Steady.poll (steady : lamp.Steady level) (systick : UInt32) :
    (lamp.poll systick).Steady level := by
  have output : lamp.output = lamp := by
    rw [Lamp.output, if_pos ⟨steady.onTick, steady.offTick⟩]
    ext
    · rfl
    · rfl
    · rw [steady.cached, steady.level]
  rw [Lamp.poll, output, Lamp.blink]
  split
  · exact ⟨steady.onTick, steady.offTick, steady.cached, steady.level⟩
  · have still := nextStatus_of_quiet
      { lamp.record with tick := lamp.record.tick + (systick - lamp.record.lstSysTick) }
      steady.onTick steady.offTick lamp.level
    dsimp only
    rw [if_neg (not_not_intro still)]
    exact ⟨steady.onTick, steady.offTick, steady.cached, steady.level⟩

/-- Operations that do not name a steady lamp leave it steady. -/
theorem Steady.act {i : Nat} {call : LedCall} (steady : lamp.Steady level)
    (other : ¬ call.Names i) : (call.act i lamp).Steady level := by
  obtain same | ⟨systick, polled⟩ := LedCall.act_of_not_names other lamp
  · rw [same]
    exact steady
  · rw [polled]
    exact steady.poll systick

theorem Steady.acts {i : Nat} {calls : List LedCall} (steady : lamp.Steady level)
    (others : ∀ call ∈ calls, ¬ call.Names i) :
    (calls.foldl (fun lamp call => call.act i lamp) lamp).Steady level := by
  induction calls generalizing lamp with
  | nil => exact steady
  | cons call rest inductionHypothesis =>
      obtain ⟨here, later⟩ := List.forall_mem_cons.mp others
      exact inductionHypothesis (steady.act here) later

end Lamp

variable {object : CCtrlLED} {pins : List UInt16}

/-- The pin of an LED is at a level, and stays there through every sequence of
polls and of operations on other LEDs; all of them return. -/
def StaysAt (result : Option CCtrlLED) (pins : List UInt16) (i : Fin pins.length)
    (level : PinLevel) : Prop :=
  ∃ after, result = some after ∧ after.gpio.level (pins.get i) = level ∧
    ∀ calls : List LedCall, (∀ call ∈ calls, call.InRange pins.length ∧ ¬ call.Names i) →
      ∃ later, LedCall.runAll after calls = some later ∧ later.gpio.level (pins.get i) = level

/-- `on` and `off` with their level as a parameter. -/
theorem LedWired.steady_staysAt (wired : LedWired object pins) (idx : UInt8)
    (inside : idx.toNat < pins.length) (level : PinLevel) :
    StaysAt (object.steady idx level) pins ⟨idx.toNat, inside⟩ level := by
  obtain ⟨after, ran, afterWired, lamps⟩ := wired.acts_steady idx level
  have steady : (after.lamp pins ⟨idx.toNat, inside⟩).Steady level := by
    have own := lamps ⟨idx.toNat, inside⟩
    simp only [if_true] at own
    rw [own]
    exact Lamp.steady_drive_blinkOff _ level
  refine ⟨after, ran, steady.level, fun calls allowed => ?_⟩
  obtain ⟨later, finished, -, laterLamps⟩ :=
    afterWired.acts_runAll fun call member => (allowed call member).1
  have stays : (later.lamp pins ⟨idx.toNat, inside⟩).Steady level := by
    rw [laterLamps]
    exact steady.acts fun call member => (allowed call member).2
  exact ⟨later, finished, stays.level⟩

/-- From any state of an LED object in order, `on` brings the LED to
`BSP_LED_ON` and `off` to `BSP_LED_OFF`, and it stays there until the next
command on it. -/
theorem on_off_stay (object : CCtrlLED) (pins : List UInt16) (wired : LedWired object pins)
    (idx : UInt8) (inside : idx.toNat < pins.length) :
    StaysAt (object.on idx) pins ⟨idx.toNat, inside⟩ bspLedOn ∧
      StaysAt (object.off idx) pins ⟨idx.toNat, inside⟩ bspLedOff :=
  ⟨wired.steady_staysAt idx inside bspLedOn, wired.steady_staysAt idx inside bspLedOff⟩

/-- The blinking LED is switched off and polled across a wrap of the tick. -/
theorem twoLeds_off_stays :
    ∃ after later, twoLeds.off 0 = some after ∧ after.gpio.level 40 = bspLedOff ∧
      LedCall.runAll after [.outputDO 0xFF 900, .on 1, .outputDO 0 5] = some later ∧
      later.gpio.level 40 = bspLedOff := by
  obtain ⟨after, ran, level, stays⟩ := (on_off_stay twoLeds [40, 41] twoLeds_wired 0 (by decide)).2
  obtain ⟨later, finished, kept⟩ := stays [.outputDO 0xFF 900, .on 1, .outputDO 0 5]
    (by simp [LedCall.InRange, LedCall.Names])
  exact ⟨after, later, ran, level, finished, kept⟩

end RttIctl.Bsp
