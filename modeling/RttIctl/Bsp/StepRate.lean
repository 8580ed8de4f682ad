import Mathlib.Algebra.Group.Int.Defs
import RttIctl.Bsp.Motor

/-!
Owns the arithmetic of `CCtrlMotor::setSpeed`: for every speed whose magnitude
an `rt_int32_t` holds and every timer clock up to 180 MHz, the three registers
fit, nothing is truncated on the way to them, the period is the requested one
up to one tick of the prescaled clock, and the pulse is half of it up to the
rounding of five divisions.
-/

namespace RttIctl.Bsp.StepRate

open Drivers.Pwm
open Bsp.Motor

/-- The magnitude of a speed in nanoseconds. -/
def magnitude (speed : BitVec 32) : Nat := speed.toInt.natAbs

/-- The requested period in cycles of the timer clock, without a word size. -/
def requested (pclk2 speed : BitVec 32) : Nat := magnitude speed * clockMHz pclk2 / 1000

/-- Every intermediate value of the call in its type: the negation in `ABS` in a
signed word, the others in the unsigned word the source gives them, and what is
written to a register in its sixteen bits. The values are those of unbounded
arithmetic. -/
structure Untruncated (pclk2 speed : BitVec 32) : Prop where
  negation : -2 ^ 31 ≤ -speed.toInt ∧ -speed.toInt < 2 ^ 31
  abs : (absSpeed speed).toNat = magnitude speed
  doubledClock : pclk2.toNat * 2 < 2 ^ 32
  timClock : timClock pclk2 = clockMHz pclk2
  periodProduct : magnitude speed * clockMHz pclk2 < 2 ^ 64
  cycles : requested pclk2 speed < 2 ^ 32
  storedCycles : periodCycles pclk2 (absSpeed speed) = requested pclk2 speed
  psc : prescaler (requested pclk2 speed) < 2 ^ 32
  pscRegister : prescaler (requested pclk2 speed) - 1 < 2 ^ 16
  arrRegister : 1 ≤ periodTicks (requested pclk2 speed) ∧
    periodTicks (requested pclk2 speed) - 1 < 2 ^ 16
  pulseProduct : magnitude speed / 2 * clockMHz pclk2 < 2 ^ 64
  pulse : magnitude speed / 2 * clockMHz pclk2 / prescaler (requested pclk2 speed) / 1000 < 2 ^ 32
  ccrRegister :
    1 ≤ pulseTicks pclk2 (absSpeed speed / 2) (requested pclk2 speed) ∧
      pulseTicks pclk2 (absSpeed speed / 2) (requested pclk2 speed) - 1 < 2 ^ 16

/-- What the registers of the timer are to a motor on `channel` after a call. -/
structure HalfDuty (pclk2 speed : BitVec 32) (tim : Tim) (channel : Nat) : Prop where
  psc : tim.psc ≤ 65535
  arr : tim.arr ≤ 65534
  ccr : 1 ≤ tim.ccr channel ∧ tim.ccr channel ≤ tim.arr
  period : 3 ≤ requested pclk2 speed →
    requested pclk2 speed < (tim.psc + 1) * (tim.arr + 1) + (tim.psc + 1) ∧
      (tim.psc + 1) * (tim.arr + 1) ≤ requested pclk2 speed
  half : 2 * tim.ccr channel ≤ tim.arr + 1 ∧ tim.arr + 1 ≤ 2 * tim.ccr channel + 4

/-! ### Half of a quotient -/

/-- Halving before the division loses at most two units of the quotient, as long
as one unit of the halved number weighs less than the divisor. -/
theorem half_quotient (whole : Nat) {scale divisor : Nat} (light : scale < divisor) :
    2 * (whole / 2 * scale / divisor) ≤ whole * scale / divisor ∧
      whole * scale / divisor ≤ 2 * (whole / 2 * scale / divisor) + 2 := by
  have positive : 0 < divisor := by omega
  have parts := Nat.div_add_mod (whole / 2 * scale) divisor
  have remainder := Nat.mod_lt (whole / 2 * scale) positive
  have below : 2 * (whole / 2 * scale) ≤ whole * scale := by
    rw [← Nat.mul_assoc]
    exact Nat.mul_le_mul_right scale (Nat.mul_div_le whole 2)
  have above : whole * scale ≤ 2 * (whole / 2 * scale) + scale := by
    calc whole * scale ≤ (2 * (whole / 2) + 1) * scale :=
          Nat.mul_le_mul_right scale (by omega)
      _ = 2 * (whole / 2 * scale) + scale := by
          rw [Nat.add_mul, Nat.one_mul, Nat.mul_assoc]
  generalize whole / 2 * scale / divisor = quotient at *
  constructor
  · rw [Nat.le_div_iff_mul_le positive, Nat.mul_assoc, Nat.mul_comm quotient]
    omega
  · rw [← Nat.lt_succ_iff, Nat.div_lt_iff_lt_mul positive, Nat.succ_eq_add_one, Nat.add_assoc,
      Nat.add_mul, Nat.mul_assoc, Nat.mul_comm quotient]
    omega

section

variable {pclk2 speed : BitVec 32}

/-! ### No truncation -/

theorem absSpeed_toNat (inRange : magnitude speed < 2 ^ 31) :
    (absSpeed speed).toNat = magnitude speed := by
  have bound := speed.isLt
  have value := BitVec.toInt_eq_toNat_cond speed
  simp only [absSpeed, magnitude] at *
  split
  · split at value <;> omega
  · rw [BitVec.toNat_neg]
    split at value <;> omega

theorem doubled_lt (fast : clockMHz pclk2 ≤ 180) : 2 * pclk2.toNat < 2 ^ 32 := by
  simp only [clockMHz] at fast
  omega

theorem product_le (fast : clockMHz pclk2 ≤ 180) (value : Nat) :
    value * clockMHz pclk2 ≤ value * 180 :=
  Nat.mul_le_mul_left value fast

theorem requested_lt (fast : clockMHz pclk2 ≤ 180) (inRange : magnitude speed < 2 ^ 31) :
    requested pclk2 speed < 386547057 := by
  have product := product_le fast (magnitude speed)
  simp only [requested]
  omega

theorem periodCycles_eq (fast : clockMHz pclk2 ≤ 180) (inRange : magnitude speed < 2 ^ 31) :
    periodCycles pclk2 (absSpeed speed) = requested pclk2 speed := by
  have small := requested_lt fast inRange
  simp only [periodCycles, absSpeed_toNat inRange, timClock_eq (doubled_lt fast)]
  simp only [requested] at *
  omega

theorem untruncated (fast : clockMHz pclk2 ≤ 180) (inRange : magnitude speed < 2 ^ 31) :
    Untruncated pclk2 speed := by
  have least := BitVec.le_toInt speed
  have product := product_le fast (magnitude speed)
  have halfProduct := product_le fast (magnitude speed / 2)
  have small := requested_lt fast inRange
  have whole := periodTicks_bounds (requested pclk2 speed)
  have part := pulseTicks_bounds pclk2 (absSpeed speed / 2) (requested pclk2 speed)
  have divided : magnitude speed / 2 * clockMHz pclk2 / prescaler (requested pclk2 speed) ≤
      magnitude speed / 2 * clockMHz pclk2 := Nat.div_le_self _ _
  constructor
  case abs => exact absSpeed_toNat inRange
  case timClock => exact timClock_eq (doubled_lt fast)
  case storedCycles => exact periodCycles_eq fast inRange
  case negation => simp only [magnitude] at inRange; omega
  case doubledClock => have doubled := doubled_lt fast; omega
  case psc => simp only [prescaler, maxPeriod]; omega
  case pscRegister => simp only [prescaler, maxPeriod]; omega
  all_goals omega

/-! ### The registers -/

/-- The pulse before its clamps: the two divisions of the source are one. -/
theorem pulse_quotient (scaled divisor : Nat) :
    scaled / divisor / 1000 = scaled / (1000 * divisor) := by
  rw [Nat.div_div_eq_div_mul, Nat.mul_comm]

/-- The pulse in ticks is half the period, up to two ticks either way. -/
theorem pulseTicks_half (fast : clockMHz pclk2 ≤ 180) (inRange : magnitude speed < 2 ^ 31) :
    2 * pulseTicks pclk2 (absSpeed speed / 2) (requested pclk2 speed) ≤
        periodTicks (requested pclk2 speed) + 2 ∧
      periodTicks (requested pclk2 speed) ≤
        2 * pulseTicks pclk2 (absSpeed speed / 2) (requested pclk2 speed) + 2 := by
  have positive : 0 < prescaler (requested pclk2 speed) := Nat.succ_pos _
  have light : clockMHz pclk2 < 1000 * prescaler (requested pclk2 speed) := by omega
  have halved := half_quotient (magnitude speed) light
  have periodQuotient : magnitude speed * clockMHz pclk2 /
      (1000 * prescaler (requested pclk2 speed)) =
        requested pclk2 speed / prescaler (requested pclk2 speed) := by
    rw [requested, Nat.div_div_eq_div_mul]
  rw [periodQuotient, ← pulse_quotient] at halved
  have small := (untruncated fast inRange).pulse
  have half : (absSpeed speed / 2).toNat = magnitude speed / 2 := by
    rw [BitVec.toNat_udiv, absSpeed_toNat inRange]
    rfl
  have leastPulse : minPulse = 2 := rfl
  have leastPeriod : minPeriod = 3 := rfl
  simp only [pulseTicks, half, timClock_eq (doubled_lt fast), Nat.mod_eq_of_lt small, periodTicks]
  generalize magnitude speed / 2 * clockMHz pclk2 / prescaler (requested pclk2 speed) / 1000 =
    pulse at *
  generalize requested pclk2 speed / prescaler (requested pclk2 speed) = period at *
  split <;> split <;> (try split) <;> omega

/-- The registers a call writes are the prescaler, the period and the pulse of
unbounded arithmetic, each one less. -/
theorem setSpeed_registers {s : State} {m : MotorId} (initialised : (s.motors m).valide = true)
    (fast : clockMHz pclk2 ≤ 180) (inRange : magnitude speed < 2 ^ 31) :
    (setSpeed pclk2 s m speed).tim.psc + 1 = prescaler (requested pclk2 speed) ∧
      (setSpeed pclk2 s m speed).tim.arr + 1 = periodTicks (requested pclk2 speed) ∧
      (setSpeed pclk2 s m speed).tim.ccr (s.motors m).pwmChl + 1 =
        pulseTicks pclk2 (absSpeed speed / 2) (requested pclk2 speed) := by
  have exact := untruncated fast inRange
  have pscPositive : 1 ≤ prescaler (requested pclk2 speed) := Nat.succ_pos _
  simp only [setSpeed, initialised, if_true, drvPwmEnable, drvPwmSet, exact.storedCycles,
    Function.update_self, Nat.mod_eq_of_lt exact.pscRegister,
    Nat.mod_eq_of_lt exact.arrRegister.2, Nat.mod_eq_of_lt exact.ccrRegister.2]
  have arr := exact.arrRegister.1
  have ccr := exact.ccrRegister.1
  omega

end

/-- `setSpeed` on an initialised motor, whatever the timer held before: nothing
is truncated, and the registers give the requested step rate at half duty. -/
theorem setSpeed_step_rate (pclk2 speed : BitVec 32) (s : State) (m : MotorId)
    (initialised : (s.motors m).valide = true) (inRange : magnitude speed < 2 ^ 31)
    (fast : clockMHz pclk2 ≤ 180) :
    Untruncated pclk2 speed ∧
      HalfDuty pclk2 speed (setSpeed pclk2 s m speed).tim (s.motors m).pwmChl := by
  have exact := untruncated fast inRange
  obtain ⟨psc, arr, ccr⟩ := setSpeed_registers initialised fast inRange
  have whole := periodTicks_bounds (requested pclk2 speed)
  have part := pulseTicks_bounds pclk2 (absSpeed speed / 2) (requested pclk2 speed)
  have half := pulseTicks_half fast inRange
  have pscBound := exact.pscRegister
  refine ⟨exact, ?_⟩
  constructor
  case period =>
    intro enough
    rw [psc, arr]
    exact period_quantum enough
  all_goals omega

/-- 84 MHz on both buses, 100 µs per step: 16800 cycles, 8399 of them high. -/
theorem setSpeed_step_rate_84MHz :
    HalfDuty 84000000 100000 (setSpeed 84000000 motorInit .motor0 100000).tim 1 ∧
      requested 84000000 100000 = 16800 :=
  ⟨(setSpeed_step_rate 84000000 100000 motorInit .motor0 rfl (by decide)
    (by decide)).2, by decide⟩

end RttIctl.Bsp.StepRate
