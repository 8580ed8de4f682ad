import Mathlib.Logic.Function.Basic
import Mathlib.Algebra.Group.Nat.Defs

/-!
Owns the PWM driver of timer TIM8, the device `pwm1`: what `drv_pwm_set` writes
to the prescaler, the auto-reload register and the compare register of one
channel, and the waveform these registers produce. The prescaler and the
auto-reload register are shared by all channels of the timer.

It does not own the configuration of pins, clocks and output modes.
-/

namespace RttIctl.Drivers.Pwm

/-- `MAX_PERIOD`. -/
def maxPeriod : Nat := 65535

/-- `MIN_PERIOD`. -/
def minPeriod : Nat := 3

/-- `MIN_PULSE`. -/
def minPulse : Nat := 2

/-- The registers of the timer; the compare registers and the outputs are
indexed by channel number. `PSC`, `ARR` and `CCR` have sixteen bits. -/
structure Tim where
  psc : Nat
  arr : Nat
  ccr : Nat → Nat
  cnt : Nat
  enabled : Nat → Bool

/-- The timer as `stm32_hw_pwm_init` leaves it. -/
def Tim.init : Tim where
  psc := 0
  arr := 0
  ccr := fun _ => 0
  cnt := 0
  enabled := fun _ => false

/-- `tim_clock` in MHz: `HAL_RCC_GetPCLK2Freq() * 2` is an unsigned product. -/
def timClock (pclk2 : BitVec 32) : Nat := (pclk2 * 2).toNat / 1000000

/-- The timer clock in MHz as the clock tree has it, `2 * PCLK2 / 10^6` without
a word size. -/
def clockMHz (pclk2 : BitVec 32) : Nat := 2 * pclk2.toNat / 1000000

/-- The requested period in cycles of the timer clock, an `rt_uint32_t`. -/
def periodCycles (pclk2 period : BitVec 32) : Nat :=
  period.toNat * timClock pclk2 / 1000 % 2 ^ 32

/-- `psc`. -/
def prescaler (cycles : Nat) : Nat := cycles / maxPeriod + 1

/-- `period` in prescaled ticks. -/
def periodTicks (cycles : Nat) : Nat :=
  if cycles / prescaler cycles < minPeriod then minPeriod else cycles / prescaler cycles

/-- `pulse` in prescaled ticks, cut to the period. -/
def pulseTicks (pclk2 pulse : BitVec 32) (cycles : Nat) : Nat :=
  let ticks := pulse.toNat * timClock pclk2 / prescaler cycles / 1000 % 2 ^ 32
  if ticks < minPulse then minPulse
  else if periodTicks cycles < ticks then periodTicks cycles
  else ticks

def drvPwmSet (pclk2 : BitVec 32) (tim : Tim) (channel : Nat) (period pulse : BitVec 32) : Tim :=
  let cycles := periodCycles pclk2 period
  { tim with
    psc := (prescaler cycles - 1) % 2 ^ 16
    arr := (periodTicks cycles - 1) % 2 ^ 16
    ccr := Function.update tim.ccr channel ((pulseTicks pclk2 pulse cycles - 1) % 2 ^ 16)
    cnt := 0 }

/-- `drv_pwm_enable` with `RT_TRUE`. -/
def drvPwmEnable (tim : Tim) (channel : Nat) : Tim :=
  { tim with enabled := Function.update tim.enabled channel true }

/-- The output of a channel in cycles of the timer clock: up-counting PWM mode
1, so that a channel is high for `CCR` ticks of a period of `ARR + 1`. -/
structure Waveform where
  period : Nat
  high : Nat
deriving DecidableEq, Repr

def Tim.waveform (tim : Tim) (channel : Nat) : Waveform where
  period := (tim.psc + 1) * (tim.arr + 1)
  high := (tim.psc + 1) * tim.ccr channel

/-! ### Bounds -/

theorem periodTicks_bounds (cycles : Nat) :
    3 ≤ periodTicks cycles ∧ periodTicks cycles ≤ 65535 := by
  have below : cycles / prescaler cycles < maxPeriod := by
    rw [prescaler, Nat.div_lt_iff_lt_mul (Nat.succ_pos _)]
    exact Nat.lt_mul_div_succ cycles (by decide)
  have least : minPeriod = 3 := rfl
  have most : maxPeriod = 65535 := rfl
  unfold periodTicks
  constructor <;> split <;> omega

theorem pulseTicks_bounds (pclk2 pulse : BitVec 32) (cycles : Nat) :
    2 ≤ pulseTicks pclk2 pulse cycles ∧ pulseTicks pclk2 pulse cycles ≤ periodTicks cycles := by
  have bounds := periodTicks_bounds cycles
  have least : minPulse = 2 := rfl
  simp only [pulseTicks]
  constructor <;> split
  · omega
  · split <;> omega
  · omega
  · split <;> omega

/-- What `drv_pwm_set` writes fits the registers, and the compare register it
writes stays between one and the auto-reload register. -/
theorem drvPwmSet_ccr_le (pclk2 : BitVec 32) (tim : Tim) (channel : Nat)
    (period pulse : BitVec 32) :
    1 ≤ (drvPwmSet pclk2 tim channel period pulse).ccr channel ∧
      (drvPwmSet pclk2 tim channel period pulse).ccr channel ≤
        (drvPwmSet pclk2 tim channel period pulse).arr := by
  have whole := periodTicks_bounds (periodCycles pclk2 period)
  have part := pulseTicks_bounds pclk2 pulse (periodCycles pclk2 period)
  simp only [drvPwmSet, Function.update_self]
  omega

/-! ### Arithmetic without a word size -/

theorem timClock_eq {pclk2 : BitVec 32} (fits : 2 * pclk2.toNat < 2 ^ 32) :
    timClock pclk2 = clockMHz pclk2 := by
  have two : (2 : BitVec 32).toNat = 2 := rfl
  simp only [timClock, clockMHz, BitVec.toNat_mul, two]
  omega

/-- From three cycles on, the clamp of the period is idle: the quotient by the
prescaler is at least three at every prescaler. -/
theorem periodTicks_of_le {cycles : Nat} (enough : 3 ≤ cycles) :
    periodTicks cycles = cycles / prescaler cycles := by
  have quotient : 3 ≤ cycles / prescaler cycles := by
    have positive : 0 < prescaler cycles := Nat.succ_pos _
    rw [Nat.le_div_iff_mul_le positive]
    simp only [prescaler, maxPeriod]
    omega
  have least : minPeriod = 3 := rfl
  rw [periodTicks, if_neg (by omega)]

/-- The prescaled period falls short of the requested one by less than one
tick. -/
theorem period_quantum {cycles : Nat} (enough : 3 ≤ cycles) :
    cycles < prescaler cycles * periodTicks cycles + prescaler cycles ∧
      prescaler cycles * periodTicks cycles ≤ cycles := by
  rw [periodTicks_of_le enough]
  have parts := Nat.div_add_mod cycles (prescaler cycles)
  have remainder := Nat.mod_lt cycles (show 0 < prescaler cycles from Nat.succ_pos _)
  omega

end RttIctl.Drivers.Pwm
