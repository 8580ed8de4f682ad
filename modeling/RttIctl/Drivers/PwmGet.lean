import RttIctl.Drivers.Pwm

/-!
Owns `drv_pwm_get` on timer TIM8 and the framework's `_pwm_write`, which reads a
configuration back, replaces its pulse and sets it again. What `drv_pwm_get`
returns is compared with what `drv_pwm_set` was given.

The two functions disagree twice. `drv_pwm_set` takes the clock of TIM8 from
APB2, `drv_pwm_get` from APB1; and `drv_pwm_get` multiplies the period by 1000
in a 32-bit word. With equal bus clocks the round trip is exact up to one
quantum as long as the product fits, and it never is beyond.
-/

namespace RttIctl.Drivers.PwmGet

open Drivers.Pwm

/-- `__HAL_TIM_GET_CLOCKDIVISION`. -/
inductive ClockDivision where
  | div1
  | div2
  | div4
deriving DecidableEq, Repr

/-- The fields of `struct rt_pwm_configuration` that the driver fills in. -/
structure Configuration where
  period : BitVec 32
  pulse : BitVec 32
deriving DecidableEq, Repr

/-- `tim_clock` of `drv_pwm_get` in MHz: TIM8 is not in its list of timers on
APB2, so that it falls to `HAL_RCC_GetPCLK1Freq() * 2`. -/
def getTimClock (pclk1 : BitVec 32) (division : ClockDivision) : Nat :=
  match division with
  | .div1 => (pclk1 * 2).toNat / 1000000
  | .div2 => (pclk1 * 2).toNat / 2 / 1000000
  | .div4 => (pclk1 * 2).toNat / 4 / 1000000

/-- Ticks of the prescaled clock in nanoseconds. `1000UL` is a 32-bit word, so
that the product wraps before the 64-bit division. -/
def nanoseconds (clock ticks prescaler : Nat) : BitVec 32 :=
  BitVec.ofNat 32 (ticks * prescaler * 1000 % 2 ^ 32 / clock)

def drvPwmGet (pclk1 : BitVec 32) (division : ClockDivision) (tim : Tim) (channel : Nat) :
    Configuration where
  period := nanoseconds (getTimClock pclk1 division) (tim.arr + 1) (tim.psc + 1)
  pulse := nanoseconds (getTimClock pclk1 division) (tim.ccr channel + 1) (tim.psc + 1)

/-- `_pwm_write`: `PWM_CMD_GET`, the new pulse, `PWM_CMD_SET`. -/
def pwmWrite (pclk1 pclk2 : BitVec 32) (division : ClockDivision) (tim : Tim) (channel : Nat)
    (pulse : BitVec 32) : Tim :=
  drvPwmSet pclk2 tim channel (drvPwmGet pclk1 division tim channel).period pulse

/-- The clocks of the two peripheral buses: running, whole numbers of MHz, and
slow enough that the timer clock, twice the bus clock, is a 32-bit frequency. -/
structure BusClocks where
  pclk1 : BitVec 32
  pclk2 : BitVec 32
  running : 0 < pclk1.toNat ∧ 0 < pclk2.toNat
  whole : 1000000 ∣ pclk1.toNat ∧ 1000000 ∣ pclk2.toNat
  doubled : 2 * pclk1.toNat < 2 ^ 32 ∧ 2 * pclk2.toNat < 2 ^ 32

/-- A request in nanoseconds in cycles of the timer clock, without a word
size. -/
def cyclesOf (clocks : BusClocks) (request : BitVec 32) : Nat :=
  request.toNat * clockMHz clocks.pclk2 / 1000

section

variable (clocks : BusClocks) (tim : Tim) (channel : Nat) (period pulse : BitVec 32)

/-- The timer after `drv_pwm_set`. -/
def afterSet : Tim := drvPwmSet clocks.pclk2 tim channel period pulse

/-- What `drv_pwm_get` returns right after it, with clock division 1. -/
def readBack : Configuration :=
  drvPwmGet clocks.pclk1 .div1 (afterSet clocks tim channel period pulse) channel

/-- The quantum `(PSC + 2) * 1000 / c + 1` nanoseconds of the comparison, times
the clock `c` in MHz: differences are compared after the same scaling, so that
no division rounds. -/
def quantum : Nat :=
  ((afterSet clocks tim channel period pulse).psc + 2) * 1000 + clockMHz clocks.pclk2

/-- A request the comparison is about. -/
structure Admissible : Prop where
  pulse_le : pulse.toNat ≤ period.toNat
  least : 3 ≤ cyclesOf clocks period
  fits : cyclesOf clocks period < 2 ^ 32
  leastPulse : 2 * ((afterSet clocks tim channel period pulse).psc + 1) ≤ cyclesOf clocks pulse

/-- The period of the waveform after `drv_pwm_set`, in cycles. -/
def cyclesSet : Nat := ((afterSet clocks tim channel period pulse).waveform channel).period

/-- The period of the waveform after a later `_pwm_write`, in cycles. -/
def cyclesWritten (replaced : BitVec 32) : Nat :=
  ((pwmWrite clocks.pclk1 clocks.pclk2 .div1 (afterSet clocks tim channel period pulse) channel
    replaced).waveform channel).period

/-- `drv_pwm_get` undoes `drv_pwm_set` up to one quantum, from below, and so a
later `_pwm_write` of any pulse never lengthens the period and shortens it by at
most one quantum. -/
structure RoundTrip : Prop where
  period_le : (readBack clocks tim channel period pulse).period.toNat ≤ period.toNat
  period_within : (period.toNat - (readBack clocks tim channel period pulse).period.toNat) *
    clockMHz clocks.pclk2 ≤ quantum clocks tim channel period pulse
  pulse_le : (readBack clocks tim channel period pulse).pulse.toNat ≤ pulse.toNat
  pulse_within : (pulse.toNat - (readBack clocks tim channel period pulse).pulse.toNat) *
    clockMHz clocks.pclk2 ≤ quantum clocks tim channel period pulse
  write_le : ∀ replaced, cyclesWritten clocks tim channel period pulse replaced ≤
    cyclesSet clocks tim channel period pulse
  write_within : ∀ replaced, (cyclesSet clocks tim channel period pulse -
    cyclesWritten clocks tim channel period pulse replaced) * 1000 ≤
      quantum clocks tim channel period pulse

end

/-! ### Decoding what was encoded -/

/-- Nanoseconds cut to whole ticks of `unit` cycles and read back. -/
def decoded (value clock unit : Nat) : Nat := value * clock / 1000 / unit * unit * 1000 / clock

theorem decoded_within (value : Nat) {clock unit : Nat} (running : 0 < clock) (scaled : 0 < unit) :
    decoded value clock unit ≤ value ∧
      (value - decoded value clock unit) * clock ≤ (unit + 1) * 1000 + clock := by
  have cycles := Nat.div_add_mod (value * clock) 1000
  have cyclesRest := Nat.mod_lt (value * clock) (show 0 < 1000 by decide)
  have ticks := Nat.div_add_mod (value * clock / 1000) unit
  have ticksRest := Nat.mod_lt (value * clock / 1000) scaled
  rw [Nat.mul_comm unit] at ticks
  have back := Nat.div_add_mod (value * clock / 1000 / unit * unit * 1000) clock
  have backRest := Nat.mod_lt (value * clock / 1000 / unit * unit * 1000) running
  rw [Nat.mul_comm clock] at back
  simp only [decoded]
  have below : value * clock / 1000 / unit * unit * 1000 / clock ≤ value := by
    rw [← Nat.lt_succ_iff, Nat.div_lt_iff_lt_mul running, Nat.succ_mul]
    omega
  refine ⟨below, ?_⟩
  rw [Nat.sub_mul]
  omega

/-- Reading a period of `total` cycles back and asking for it again gives at
most `total` cycles, and loses less than a nanosecond and a cycle. -/
theorem cycles_of_nanoseconds (total : Nat) {clock : Nat} (running : 0 < clock) :
    total * 1000 / clock * clock / 1000 ≤ total ∧
      total * 1000 ≤ total * 1000 / clock * clock / 1000 * 1000 + clock + 998 := by
  have back := Nat.div_add_mod (total * 1000) clock
  have backRest := Nat.mod_lt (total * 1000) running
  rw [Nat.mul_comm clock] at back
  omega

/-- What `drv_pwm_set` makes of a number of cycles, in cycles again. -/
def roundedCycles (cycles : Nat) : Nat := prescaler cycles * periodTicks cycles

theorem roundedCycles_ge (cycles : Nat) : cycles < roundedCycles cycles + prescaler cycles := by
  have parts := Nat.div_add_mod cycles (prescaler cycles)
  have remainder := Nat.mod_lt cycles (show 0 < prescaler cycles from Nat.succ_pos _)
  have clamped : prescaler cycles * (cycles / prescaler cycles) ≤ roundedCycles cycles := by
    apply Nat.mul_le_mul_left
    have least : minPeriod = 3 := rfl
    rw [periodTicks]
    split <;> omega
  omega

theorem three_le_roundedCycles (cycles : Nat) : 3 ≤ roundedCycles cycles :=
  Nat.le_trans (periodTicks_bounds cycles).1 (Nat.le_mul_of_pos_left _ (Nat.succ_pos _))

/-- Rounding a number of cycles that is not above an already rounded one. -/
theorem roundedCycles_le {cycles bound : Nat} (below : cycles ≤ bound) (least : 3 ≤ bound) :
    roundedCycles cycles ≤ bound := by
  by_cases enough : 3 ≤ cycles
  · exact Nat.le_trans (period_quantum enough).2 below
  · -- the clamp of the period, at prescaler one
    have short : cycles / maxPeriod = 0 := Nat.div_eq_of_lt (by simp only [maxPeriod]; omega)
    have clamped : cycles / 1 < minPeriod := by simp only [minPeriod]; omega
    simp only [roundedCycles, periodTicks, prescaler, short, Nat.zero_add, clamped, if_true,
      Nat.one_mul]
    exact least

/-- The product with 1000 fits a word exactly up to the 65075th multiple of the
prescaler 66. -/
theorem product_fits_iff {cycles : Nat} (least : 3 ≤ cycles) :
    roundedCycles cycles * 1000 < 2 ^ 32 ↔ cycles < 4295016 := by
  obtain ⟨above, below⟩ := period_quantum least
  have divisor : prescaler cycles = cycles / 65535 + 1 := rfl
  have parts : prescaler cycles * periodTicks cycles = roundedCycles cycles := rfl
  by_cases middle : cycles / 65535 = 65
  · rw [divisor, middle] at parts above below
    omega
  · omega

theorem nanoseconds_toNat (clock ticks prescaler : Nat) :
    (nanoseconds clock ticks prescaler).toNat = ticks * prescaler * 1000 % 2 ^ 32 / clock := by
  have small := Nat.mod_lt (ticks * prescaler * 1000) (show 0 < 2 ^ 32 by decide)
  have divided := Nat.div_le_self (ticks * prescaler * 1000 % 2 ^ 32) clock
  rw [nanoseconds, BitVec.toNat_ofNat, Nat.mod_eq_of_lt (by omega)]

/-! ### The two clocks -/

theorem BusClocks.clock_pos (clocks : BusClocks) :
    0 < clockMHz clocks.pclk1 ∧ 0 < clockMHz clocks.pclk2 := by
  obtain ⟨⟨first, firstEq⟩, second, secondEq⟩ := clocks.whole
  have running := clocks.running
  simp only [clockMHz]
  omega

theorem BusClocks.clock_lt (clocks : BusClocks) :
    clockMHz clocks.pclk1 < 4295 ∧ clockMHz clocks.pclk2 < 4295 := by
  have doubled := clocks.doubled
  simp only [clockMHz]
  omega

theorem BusClocks.clock_eq_iff (clocks : BusClocks) :
    clockMHz clocks.pclk1 = clockMHz clocks.pclk2 ↔ clocks.pclk1 = clocks.pclk2 := by
  obtain ⟨⟨first, firstEq⟩, second, secondEq⟩ := clocks.whole
  rw [← BitVec.toNat_inj]
  simp only [clockMHz]
  omega

theorem BusClocks.getTimClock_eq (clocks : BusClocks) :
    getTimClock clocks.pclk1 .div1 = clockMHz clocks.pclk1 :=
  timClock_eq clocks.doubled.1

theorem BusClocks.periodCycles_eq (clocks : BusClocks) (request : BitVec 32) :
    periodCycles clocks.pclk2 request = cyclesOf clocks request % 2 ^ 32 := by
  rw [periodCycles, timClock_eq clocks.doubled.2, cyclesOf]

/-! ### The registers and what is read back -/

section

variable {clocks : BusClocks} {tim : Tim} {channel : Nat} {period pulse : BitVec 32}

theorem afterSet_arr (fits : cyclesOf clocks period < 2 ^ 32) :
    (afterSet clocks tim channel period pulse).arr + 1 = periodTicks (cyclesOf clocks period) := by
  have bounds := periodTicks_bounds (cyclesOf clocks period)
  simp only [afterSet, drvPwmSet, clocks.periodCycles_eq, Nat.mod_eq_of_lt fits]
  omega

theorem afterSet_psc (fits : cyclesOf clocks period < 2 ^ 32) :
    (afterSet clocks tim channel period pulse).psc = cyclesOf clocks period / 65535 % 2 ^ 16 := by
  simp only [afterSet, drvPwmSet, clocks.periodCycles_eq, Nat.mod_eq_of_lt fits]
  rfl

/-- The prescaler fits its register up to periods of nearly 2^32 cycles. -/
theorem afterSet_prescaler (fits : cyclesOf clocks period < 65535 * 65536) :
    (afterSet clocks tim channel period pulse).psc + 1 = prescaler (cyclesOf clocks period) := by
  have divisor : prescaler (cyclesOf clocks period) = cyclesOf clocks period / 65535 + 1 := rfl
  rw [afterSet_psc (by omega)]
  omega

theorem cyclesSet_eq (fits : cyclesOf clocks period < 65535 * 65536) :
    cyclesSet clocks tim channel period pulse = roundedCycles (cyclesOf clocks period) := by
  rw [cyclesSet, Tim.waveform, afterSet_prescaler fits, afterSet_arr (by omega), roundedCycles]

theorem readBack_period_toNat :
    (readBack clocks tim channel period pulse).period.toNat =
      cyclesSet clocks tim channel period pulse * 1000 % 2 ^ 32 / clockMHz clocks.pclk1 := by
  rw [readBack, drvPwmGet, clocks.getTimClock_eq, nanoseconds_toNat, cyclesSet, Tim.waveform,
    Nat.mul_comm (_ + 1)]

/-- A pulse that is not above the period and has two ticks keeps its own number
of ticks: neither clamp applies. -/
theorem afterSet_ccr (admissible : Admissible clocks tim channel period pulse)
    (fits : cyclesOf clocks period < 65535 * 65536) :
    (afterSet clocks tim channel period pulse).ccr channel + 1 =
      cyclesOf clocks pulse / prescaler (cyclesOf clocks period) := by
  have least := admissible.leastPulse
  have below : cyclesOf clocks pulse ≤ cyclesOf clocks period :=
    Nat.div_le_div_right (Nat.mul_le_mul_right _ admissible.pulse_le)
  rw [afterSet_prescaler fits] at least
  have positive : 0 < prescaler (cyclesOf clocks period) := Nat.succ_pos _
  have two : 2 ≤ cyclesOf clocks pulse / prescaler (cyclesOf clocks period) := by
    rw [Nat.le_div_iff_mul_le positive]
    exact least
  have within := Nat.div_le_div_right (c := prescaler (cyclesOf clocks period)) below
  have most := periodTicks_bounds (cyclesOf clocks period)
  rw [periodTicks_of_le admissible.least] at most
  have swapped : pulse.toNat * clockMHz clocks.pclk2 / prescaler (cyclesOf clocks period) / 1000 =
      cyclesOf clocks pulse / prescaler (cyclesOf clocks period) := by
    generalize prescaler (cyclesOf clocks period) = divisor
    rw [cyclesOf, Nat.div_div_eq_div_mul, Nat.div_div_eq_div_mul, Nat.mul_comm 1000]
  have exact : cyclesOf clocks period < 2 ^ 32 := by omega
  have leastTicks : minPulse = 2 := rfl
  simp only [afterSet, drvPwmSet, Function.update_self, clocks.periodCycles_eq,
    Nat.mod_eq_of_lt exact, pulseTicks, timClock_eq clocks.doubled.2, swapped,
    periodTicks_of_le admissible.least]
  split
  · omega
  · split <;> omega

/-! ### Equal bus clocks -/

theorem readBack_period_eq (same : clocks.pclk1 = clocks.pclk2)
    (admissible : Admissible clocks tim channel period pulse)
    (short : cyclesOf clocks period < 4295016) :
    (readBack clocks tim channel period pulse).period.toNat =
      decoded period.toNat (clockMHz clocks.pclk2) (prescaler (cyclesOf clocks period)) := by
  have product := (product_fits_iff admissible.least).mpr short
  have cycles : period.toNat * clockMHz clocks.pclk2 / 1000 = cyclesOf clocks period := rfl
  rw [readBack_period_toNat, cyclesSet_eq (by omega), Nat.mod_eq_of_lt product, same,
    roundedCycles, periodTicks_of_le admissible.least, decoded, cycles, Nat.mul_comm (prescaler _)]

theorem readBack_pulse_eq (same : clocks.pclk1 = clocks.pclk2)
    (admissible : Admissible clocks tim channel period pulse)
    (short : cyclesOf clocks period < 4295016) :
    (readBack clocks tim channel period pulse).pulse.toNat =
      decoded pulse.toNat (clockMHz clocks.pclk2) (prescaler (cyclesOf clocks period)) := by
  have product := (product_fits_iff admissible.least).mpr short
  have fits : cyclesOf clocks period < 65535 * 65536 := by omega
  have below : cyclesOf clocks pulse ≤ cyclesOf clocks period :=
    Nat.div_le_div_right (Nat.mul_le_mul_right _ admissible.pulse_le)
  have ticks := Nat.div_le_div_right (c := prescaler (cyclesOf clocks period)) below
  have pulseFits : cyclesOf clocks pulse / prescaler (cyclesOf clocks period) *
      prescaler (cyclesOf clocks period) ≤ roundedCycles (cyclesOf clocks period) := by
    rw [roundedCycles, periodTicks_of_le admissible.least, Nat.mul_comm]
    exact Nat.mul_le_mul_left _ ticks
  have pulseProduct : cyclesOf clocks pulse / prescaler (cyclesOf clocks period) *
      prescaler (cyclesOf clocks period) * 1000 < 2 ^ 32 :=
    Nat.lt_of_le_of_lt (Nat.mul_le_mul_right 1000 pulseFits) product
  have cycles : pulse.toNat * clockMHz clocks.pclk2 / 1000 = cyclesOf clocks pulse := rfl
  rw [readBack, drvPwmGet, nanoseconds_toNat, afterSet_ccr admissible fits,
    afterSet_prescaler fits, clocks.getTimClock_eq, same, Nat.mod_eq_of_lt pulseProduct, decoded,
    cycles]

/-- A write asks for the period that was read back, whatever the pulse. -/
theorem cyclesWritten_eq (replaced : BitVec 32) :
    cyclesWritten clocks tim channel period pulse replaced =
      cyclesSet clocks (afterSet clocks tim channel period pulse) channel
        (readBack clocks tim channel period pulse).period replaced := rfl

theorem readBack_cycles (same : clocks.pclk1 = clocks.pclk2)
    (admissible : Admissible clocks tim channel period pulse)
    (short : cyclesOf clocks period < 4295016) :
    cyclesOf clocks (readBack clocks tim channel period pulse).period =
      roundedCycles (cyclesOf clocks period) * 1000 / clockMHz clocks.pclk2 *
        clockMHz clocks.pclk2 / 1000 := by
  have product := (product_fits_iff admissible.least).mpr short
  rw [cyclesOf, readBack_period_toNat, cyclesSet_eq (by omega), Nat.mod_eq_of_lt product, same]

/-- With equal clocks, a write after a short enough period keeps it up to the
quantum of the old prescaler. -/
theorem write_within_quantum (same : clocks.pclk1 = clocks.pclk2)
    (admissible : Admissible clocks tim channel period pulse)
    (short : cyclesOf clocks period < 4295016)
    (replaced : BitVec 32) :
    cyclesWritten clocks tim channel period pulse replaced ≤
        cyclesSet clocks tim channel period pulse ∧
      (cyclesSet clocks tim channel period pulse -
        cyclesWritten clocks tim channel period pulse replaced) * 1000 ≤
          quantum clocks tim channel period pulse := by
  have fits : cyclesOf clocks period < 65535 * 65536 := by omega
  have rounded := (period_quantum admissible.least).2
  have roundedLeast := three_le_roundedCycles (cyclesOf clocks period)
  have back := cycles_of_nanoseconds (roundedCycles (cyclesOf clocks period)) clocks.clock_pos.2
  rw [← readBack_cycles same admissible short] at back
  have below : roundedCycles (cyclesOf clocks period) ≤ cyclesOf clocks period := rounded
  have above := roundedCycles_ge (cyclesOf clocks (readBack clocks tim channel period pulse).period)
  have divisors : prescaler (cyclesOf clocks (readBack clocks tim channel period pulse).period) ≤
      prescaler (cyclesOf clocks period) :=
    Nat.succ_le_succ (Nat.div_le_div_right (by omega))
  have scale : quantum clocks tim channel period pulse =
      (prescaler (cyclesOf clocks period) + 1) * 1000 + clockMHz clocks.pclk2 := by
    rw [quantum, ← afterSet_prescaler fits]
  rw [cyclesWritten_eq, cyclesSet_eq fits, cyclesSet_eq (by omega), scale]
  refine ⟨roundedCycles_le back.1 roundedLeast, ?_⟩
  omega

/-- Equal clocks, and the product with 1000 fits a word. -/
theorem roundTrip_of_fits (same : clocks.pclk1 = clocks.pclk2)
    (admissible : Admissible clocks tim channel period pulse)
    (short : cyclesOf clocks period < 4295016) :
    RoundTrip clocks tim channel period pulse := by
  have running := clocks.clock_pos.2
  have positive : 0 < prescaler (cyclesOf clocks period) := Nat.succ_pos _
  have scale : quantum clocks tim channel period pulse =
      (prescaler (cyclesOf clocks period) + 1) * 1000 + clockMHz clocks.pclk2 := by
    rw [quantum, ← afterSet_prescaler (by omega)]
  have periodBounds := decoded_within period.toNat running positive
  have pulseBounds := decoded_within pulse.toNat running positive
  rw [← scale] at periodBounds pulseBounds
  rw [← readBack_period_eq same admissible short] at periodBounds
  rw [← readBack_pulse_eq same admissible short] at pulseBounds
  have write := write_within_quantum same admissible short
  exact ⟨periodBounds.1, periodBounds.2, pulseBounds.1, pulseBounds.2,
    fun replaced => (write replaced).1, fun replaced => (write replaced).2⟩

/-- Beyond that the product wraps, or the prescaler no longer fits its register:
the period read back is short by more than 2^31 cycles of a nanosecond. -/
theorem not_roundTrip_of_wraps (same : clocks.pclk1 = clocks.pclk2)
    (admissible : Admissible clocks tim channel period pulse)
    (long : 4295016 ≤ cyclesOf clocks period) :
    ¬ RoundTrip clocks tim channel period pulse := by
  intro roundTrip
  have running := clocks.clock_pos.2
  have bound := clocks.clock_lt.2
  have within := roundTrip.period_within
  have requested : cyclesOf clocks period * 1000 ≤ period.toNat * clockMHz clocks.pclk2 :=
    Nat.div_mul_le_self _ _
  have readBackLe : (readBack clocks tim channel period pulse).period.toNat *
      clockMHz clocks.pclk2 ≤ cyclesSet clocks tim channel period pulse * 1000 % 2 ^ 32 := by
    rw [readBack_period_toNat, same]
    exact Nat.div_mul_le_self _ _
  have register : (afterSet clocks tim channel period pulse).psc =
      cyclesOf clocks period / 65535 % 2 ^ 16 := afterSet_psc admissible.fits
  have fits := admissible.fits
  rw [quantum, Nat.sub_mul] at within
  by_cases held : cyclesOf clocks period < 65535 * 65536
  · have below : roundedCycles (cyclesOf clocks period) ≤ cyclesOf clocks period :=
      (period_quantum admissible.least).2
    have wraps := product_fits_iff admissible.least
    rw [cyclesSet_eq held] at readBackLe
    omega
  · -- the prescaler register holds 0 or 1
    have few : cyclesSet clocks tim channel period pulse ≤ 2 * 65535 := by
      rw [cyclesSet, Tim.waveform, afterSet_arr fits]
      exact Nat.mul_le_mul (by omega) (periodTicks_bounds _).2
    have small := Nat.mod_le (cyclesSet clocks tim channel period pulse * 1000) (2 ^ 32)
    omega

end

/-! ### Different bus clocks -/

/-- A period of 4.29 seconds of a 1 MHz clock, whatever the clock is: 65000
ticks at prescaler 66. -/
def longPeriod (clocks : BusClocks) : BitVec 32 :=
  BitVec.ofNat 32 ((4290000000 + clockMHz clocks.pclk2 - 1) / clockMHz clocks.pclk2)

theorem longPeriod_scaled (clocks : BusClocks) :
    4290000000 ≤ (longPeriod clocks).toNat * clockMHz clocks.pclk2 ∧
      (longPeriod clocks).toNat * clockMHz clocks.pclk2 < 4290000000 + clockMHz clocks.pclk2 := by
  have running := clocks.clock_pos.2
  have bound := clocks.clock_lt.2
  have parts := Nat.div_add_mod (4290000000 + clockMHz clocks.pclk2 - 1) (clockMHz clocks.pclk2)
  have rest := Nat.mod_lt (4290000000 + clockMHz clocks.pclk2 - 1) running
  have small := Nat.div_le_self (4290000000 + clockMHz clocks.pclk2 - 1) (clockMHz clocks.pclk2)
  rw [longPeriod, BitVec.toNat_ofNat, Nat.mod_eq_of_lt (by omega), Nat.mul_comm]
  omega

theorem longPeriod_cycles (clocks : BusClocks) :
    4290000 ≤ cyclesOf clocks (longPeriod clocks) ∧
      cyclesOf clocks (longPeriod clocks) ≤ 4290004 := by
  have scaled := longPeriod_scaled clocks
  have bound := clocks.clock_lt.2
  rw [cyclesOf]
  omega

section

variable (clocks : BusClocks) (tim : Tim) (channel : Nat)

theorem longPeriod_psc :
    (afterSet clocks tim channel (longPeriod clocks) (longPeriod clocks)).psc = 65 := by
  have cycles := longPeriod_cycles clocks
  rw [afterSet_psc (by omega)]
  omega

theorem longPeriod_admissible :
    Admissible clocks tim channel (longPeriod clocks) (longPeriod clocks) := by
  have cycles := longPeriod_cycles clocks
  have psc := longPeriod_psc clocks tim channel
  constructor <;> omega

theorem longPeriod_readBack :
    (readBack clocks tim channel (longPeriod clocks) (longPeriod clocks)).period.toNat =
      4290000000 / clockMHz clocks.pclk1 := by
  have cycles := longPeriod_cycles clocks
  have divisor : prescaler (cyclesOf clocks (longPeriod clocks)) = 66 := by
    simp only [prescaler, maxPeriod]
    omega
  have ticks : cyclesOf clocks (longPeriod clocks) / 66 = 65000 := by omega
  rw [readBack_period_toNat, cyclesSet_eq (by omega), roundedCycles,
    periodTicks_of_le (by omega), divisor, ticks, show 66 * 65000 * 1000 % 2 ^ 32 = 4290000000 by
      decide]

/-- The period read back is longer than the one set when APB1 is the slower bus,
and far too short when it is the faster one. -/
theorem not_roundTrip_longPeriod (different : clocks.pclk1 ≠ clocks.pclk2) :
    ¬ RoundTrip clocks tim channel (longPeriod clocks) (longPeriod clocks) := by
  intro roundTrip
  have unequal : clockMHz clocks.pclk1 ≠ clockMHz clocks.pclk2 :=
    fun equal => different (clocks.clock_eq_iff.mp equal)
  have bound := clocks.clock_lt
  have parts := Nat.div_add_mod 4290000000 (clockMHz clocks.pclk1)
  have rest := Nat.mod_lt 4290000000 clocks.clock_pos.1
  have scaled := longPeriod_scaled clocks
  have below := roundTrip.period_le
  have within := roundTrip.period_within
  rw [quantum, longPeriod_psc, Nat.sub_mul] at within
  rw [longPeriod_readBack] at below within
  generalize (longPeriod clocks).toNat = period at *
  generalize 4290000000 / clockMHz clocks.pclk1 = back at *
  generalize clockMHz clocks.pclk1 = slow at *
  generalize clockMHz clocks.pclk2 = fast at *
  rcases Nat.lt_or_gt_of_ne unequal with slower | faster
  · have shifted : (back + 1) * slow ≤ (period + 1) * (fast - 1) :=
      Nat.mul_le_mul (by omega) (by omega)
    have large : period * fast ≤ period * 4294 := Nat.mul_le_mul_left _ (by omega)
    rw [Nat.mul_sub, Nat.add_mul, Nat.add_mul] at shifted
    rw [Nat.mul_comm slow] at parts
    omega
  · have shifted : back * fast ≤ back * (slow - 1) := Nat.mul_le_mul_left _ (by omega)
    have large : back * slow ≤ back * 4294 := Nat.mul_le_mul_left _ (by omega)
    rw [Nat.mul_sub] at shifted
    rw [Nat.mul_comm slow] at parts
    omega

end

/-- When `drv_pwm_get` undoes `drv_pwm_set`. With equal bus clocks it does so
exactly for the periods below 4295016 cycles; and equal bus clocks are needed,
for whatever other pair it fails on some period below that bound. -/
theorem pwmGet_undoes_pwmSet_iff (clocks : BusClocks) (tim : Tim) (channel : Nat) :
    (clocks.pclk1 = clocks.pclk2 → ∀ period pulse, Admissible clocks tim channel period pulse →
      (RoundTrip clocks tim channel period pulse ↔ cyclesOf clocks period < 4295016)) ∧
    ((∀ period pulse, Admissible clocks tim channel period pulse →
      cyclesOf clocks period < 4295016 → RoundTrip clocks tim channel period pulse) ↔
        clocks.pclk1 = clocks.pclk2) := by
  constructor
  · intro same period pulse admissible
    constructor
    · intro roundTrip
      by_contra long
      exact not_roundTrip_of_wraps same admissible (by omega) roundTrip
    · exact roundTrip_of_fits same admissible
  · constructor
    · intro all
      by_contra different
      have cycles := longPeriod_cycles clocks
      exact not_roundTrip_longPeriod clocks tim channel different
        (all _ _ (longPeriod_admissible clocks tim channel) (by omega))
    · intro same period pulse admissible short
      exact roundTrip_of_fits same admissible short

/-- The clocks of the board: APB1 at 42 MHz, APB2 at 84 MHz. -/
def boardClocks : BusClocks where
  pclk1 := 42000000
  pclk2 := 84000000
  running := by decide
  whole := by decide
  doubled := by decide

/-- Both buses at 84 MHz. -/
def equalClocks : BusClocks where
  pclk1 := 84000000
  pclk2 := 84000000
  running := by decide
  whole := by decide
  doubled := by decide

theorem pwmGet_undoes_pwmSet_equalClocks :
    RoundTrip equalClocks .init 1 100000 50000 ∧ cyclesOf equalClocks 100000 = 16800 :=
  ⟨((pwmGet_undoes_pwmSet_iff equalClocks .init 1).1 rfl 100000 50000
    ⟨by decide, by decide, by decide, by decide +kernel⟩).mpr (by decide), by decide⟩

/-- On the board a period of 100 µs is read back as 200 µs. With equal clocks a
period of 26 ms, whose product wraps, is read back as 434 µs. -/
theorem pwmGet_misreads :
    (Admissible boardClocks .init 1 100000 50000 ∧
      (readBack boardClocks .init 1 100000 50000).period = 200000 ∧
      ¬ RoundTrip boardClocks .init 1 100000 50000) ∧
    Admissible equalClocks .init 1 26000000 13000000 ∧
      (readBack equalClocks .init 1 26000000 13000000).period = 434706 ∧
      ¬ RoundTrip equalClocks .init 1 26000000 13000000 := by
  have doubled : (readBack boardClocks .init 1 100000 50000).period = 200000 := by decide +kernel
  have wrapped : (readBack equalClocks .init 1 26000000 13000000).period = 434706 := by
    decide +kernel
  refine ⟨⟨⟨by decide, by decide, by decide, by decide +kernel⟩, doubled, ?_⟩,
    ⟨by decide, by decide, by decide, by decide +kernel⟩, wrapped, ?_⟩
  · intro roundTrip
    have below := roundTrip.period_le
    rw [doubled] at below
    exact absurd below (by decide)
  · intro roundTrip
    have within := roundTrip.period_within
    rw [wrapped] at within
    exact absurd within (by decide +kernel)

end RttIctl.Drivers.PwmGet
