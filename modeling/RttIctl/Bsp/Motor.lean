import RttIctl.Drivers.Pwm
import Mathlib.Data.List.Induction

/-!
Owns the two motor controllers `g_hdl_motor0` and `g_hdl_motor1` and
`CCtrlMotor::setSpeed`. Both drive channels of one timer, whose prescaler and
auto-reload register every call rewrites; a motor keeps the waveform of its own
last call exactly when the last call on the other motor asks for the same
prescaler and reload.

It does not own the enable pin, nor the device lookup: `pwm1` is taken as
found when the controllers are initialised.
-/

namespace RttIctl.Bsp.Motor

open Drivers.Pwm

inductive MotorId where
  | motor0
  | motor1
deriving DecidableEq, Repr

/-- What `setSpeed` uses of `CCtrlMotor`, with the level of the direction pin:
`true` is `MONTOR_CW`. -/
structure CCtrlMotor where
  pwmChl : Nat
  valide : Bool
  dir : Bool
deriving DecidableEq, Repr

structure State where
  tim : Tim
  motors : MotorId → CCtrlMotor

/-- `m_pwmChl` as `motor_init` sets it. -/
def pwmChl : MotorId → Nat
  | .motor0 => 1
  | .motor1 => 2

def motorInit : State where
  tim := .init
  motors := fun m => ⟨pwmChl m, true, true⟩

/-- `ABS`, whose result is stored in an `rt_uint32_t`. -/
def absSpeed (speed : BitVec 32) : BitVec 32 := if 0 < speed.toInt then speed else -speed

def setSpeed (pclk2 : BitVec 32) (s : State) (m : MotorId) (speed : BitVec 32) : State :=
  if (s.motors m).valide then
    { tim := drvPwmEnable (drvPwmSet pclk2 s.tim (s.motors m).pwmChl (absSpeed speed)
        (absSpeed speed / 2)) (s.motors m).pwmChl
      motors := Function.update s.motors m { s.motors m with dir := decide (0 < speed.toInt) } }
  else s

/-- Calls of `setSpeed` on either motor, in order, after `motor_init`. -/
def setSpeeds (pclk2 : BitVec 32) (calls : List (MotorId × BitVec 32)) : State :=
  calls.foldl (fun s call => setSpeed pclk2 s call.1 call.2) motorInit

/-- The argument of the last call on one motor. -/
def lastSpeed (m : MotorId) (calls : List (MotorId × BitVec 32)) : Option (BitVec 32) :=
  calls.foldl (fun last call => if call.1 = m then some call.2 else last) none

/-- Each motor that has been called has the waveform of its last call alone,
and no compare register exceeds the auto-reload register. -/
structure Independent (pclk2 : BitVec 32) (calls : List (MotorId × BitVec 32)) : Prop where
  waveform : ∀ m speed, lastSpeed m calls = some speed →
    (setSpeeds pclk2 calls).tim.waveform (pwmChl m) =
      (setSpeeds pclk2 [(m, speed)]).tim.waveform (pwmChl m)
  ccr : ∀ channel, (setSpeeds pclk2 calls).tim.ccr channel ≤ (setSpeeds pclk2 calls).tim.arr

/-- The period a speed asks for, in cycles of the timer clock. -/
def speedCycles (pclk2 speed : BitVec 32) : Nat := periodCycles pclk2 (absSpeed speed)

/-- Two periods share the prescaler and, in prescaled ticks, the reload. -/
def SamePeriod (first second : Nat) : Prop :=
  first / 65535 % 2 ^ 16 = second / 65535 % 2 ^ 16 ∧
    max 3 (first / (first / 65535 + 1)) = max 3 (second / (second / 65535 + 1))

/-! ### What the calls leave in the registers -/

def pscOf (pclk2 speed : BitVec 32) : Nat := (prescaler (speedCycles pclk2 speed) - 1) % 2 ^ 16

def arrOf (pclk2 speed : BitVec 32) : Nat := (periodTicks (speedCycles pclk2 speed) - 1) % 2 ^ 16

def ccrOf (pclk2 speed : BitVec 32) : Nat :=
  (pulseTicks pclk2 (absSpeed speed / 2) (speedCycles pclk2 speed) - 1) % 2 ^ 16

variable {pclk2 : BitVec 32}

theorem ccrOf_bounds (pclk2 speed : BitVec 32) :
    1 ≤ ccrOf pclk2 speed ∧ ccrOf pclk2 speed ≤ arrOf pclk2 speed := by
  simpa [drvPwmSet, ccrOf, arrOf, speedCycles] using
    drvPwmSet_ccr_le pclk2 .init 1 (absSpeed speed) (absSpeed speed / 2)

/-- The registers after a sequence of calls: the shared ones belong to the last
call, the compare registers to the last call on their motor. -/
structure Written (pclk2 : BitVec 32) (calls : List (MotorId × BitVec 32)) (s : State) : Prop where
  wired : ∀ m, (s.motors m).valide = true ∧ (s.motors m).pwmChl = pwmChl m
  shared : ∀ call, calls.getLast? = some call →
    s.tim.psc = pscOf pclk2 call.2 ∧ s.tim.arr = arrOf pclk2 call.2
  own : ∀ m speed, lastSpeed m calls = some speed → s.tim.ccr (pwmChl m) = ccrOf pclk2 speed
  unused : ∀ channel, (∀ m, lastSpeed m calls ≠ none → pwmChl m ≠ channel) →
    s.tim.ccr channel = 0

theorem lastSpeed_append (m : MotorId) (calls : List (MotorId × BitVec 32))
    (call : MotorId × BitVec 32) :
    lastSpeed m (calls ++ [call]) = if call.1 = m then some call.2 else lastSpeed m calls := by
  simp [lastSpeed]

theorem pwmChl_injective {m k : MotorId} (same : pwmChl m = pwmChl k) : m = k := by
  cases m <;> cases k <;> first | rfl | cases same

/-- A call on a motor that is wired up sets the timer and its own channel. -/
theorem setSpeed_eq {s : State} {m : MotorId} (isValid : (s.motors m).valide = true)
    (channel : (s.motors m).pwmChl = pwmChl m) (speed : BitVec 32) :
    setSpeed pclk2 s m speed =
      { tim := drvPwmEnable (drvPwmSet pclk2 s.tim (pwmChl m) (absSpeed speed)
          (absSpeed speed / 2)) (pwmChl m)
        motors := Function.update s.motors m
          { s.motors m with dir := decide (0 < speed.toInt) } } := by
  simp only [setSpeed, isValid, if_true, channel]

theorem own_step {calls : List (MotorId × BitVec 32)} {s : State} (inv : Written pclk2 calls s)
    (m k : MotorId) (speed last : BitVec 32)
    (isLast : lastSpeed k (calls ++ [(m, speed)]) = some last) :
    Function.update s.tim.ccr (pwmChl m) (ccrOf pclk2 speed) (pwmChl k) = ccrOf pclk2 last := by
  rw [lastSpeed_append] at isLast
  by_cases same : m = k
  · simp only [same, if_true, Option.some.injEq] at isLast
    simp [same, isLast]
  · have different : pwmChl k ≠ pwmChl m := fun equal => same (pwmChl_injective equal).symm
    simp only [same, if_false] at isLast
    rw [Function.update_of_ne different, inv.own k last isLast]

theorem unused_step {calls : List (MotorId × BitVec 32)} {s : State} (inv : Written pclk2 calls s)
    (m : MotorId) (speed : BitVec 32) (channel : Nat)
    (free : ∀ k, lastSpeed k (calls ++ [(m, speed)]) ≠ none → pwmChl k ≠ channel) :
    Function.update s.tim.ccr (pwmChl m) (ccrOf pclk2 speed) channel = 0 := by
  have different : channel ≠ pwmChl m := by
    rintro rfl
    exact free m (by simp [lastSpeed_append]) rfl
  rw [Function.update_of_ne different]
  apply inv.unused
  intro k called
  apply free
  rw [lastSpeed_append]
  split
  · simp
  · exact called

theorem written_step {calls : List (MotorId × BitVec 32)} {s : State}
    (inv : Written pclk2 calls s) (call : MotorId × BitVec 32) :
    Written pclk2 (calls ++ [call]) (setSpeed pclk2 s call.1 call.2) := by
  obtain ⟨m, speed⟩ := call
  obtain ⟨isValid, channel⟩ := inv.wired m
  rw [setSpeed_eq isValid channel]
  constructor
  · intro k
    by_cases same : k = m
    · simpa [same] using inv.wired m
    · simpa [same] using inv.wired k
  · intro last isLast
    obtain rfl : (m, speed) = last := by simpa using isLast
    exact ⟨rfl, rfl⟩
  · intro k last
    exact own_step inv m k speed last
  · intro other
    exact unused_step inv m speed other

theorem written (pclk2 : BitVec 32) (calls : List (MotorId × BitVec 32)) :
    Written pclk2 calls (setSpeeds pclk2 calls) := by
  induction calls using List.reverseRecOn with
  | nil =>
      refine ⟨fun m => ⟨rfl, rfl⟩, ?_, ?_, fun channel _ => rfl⟩
      · simp
      · simp [lastSpeed]
  | append_singleton calls call inductionHypothesis =>
      have stepped := written_step inductionHypothesis call
      simpa [setSpeeds] using stepped

/-! ### The shared registers decide the waveform -/

theorem prescaler_sub_one (cycles : Nat) : prescaler cycles - 1 = cycles / 65535 := rfl

theorem periodTicks_eq_max (cycles : Nat) :
    periodTicks cycles = max 3 (cycles / (cycles / 65535 + 1)) := by
  have least : minPeriod = 3 := rfl
  have divisor : prescaler cycles = cycles / 65535 + 1 := rfl
  rw [periodTicks, divisor]
  split <;> omega

theorem samePeriod_iff (v w : BitVec 32) :
    SamePeriod (speedCycles pclk2 v) (speedCycles pclk2 w) ↔
      pscOf pclk2 v = pscOf pclk2 w ∧ arrOf pclk2 v = arrOf pclk2 w := by
  have firstBounds := periodTicks_bounds (speedCycles pclk2 v)
  have secondBounds := periodTicks_bounds (speedCycles pclk2 w)
  simp only [SamePeriod, pscOf, arrOf, prescaler_sub_one, ← periodTicks_eq_max]
  omega

/-- With the compare register of its last call, a channel has the waveform of
that call exactly when the shared registers are those of that call. -/
theorem waveform_eq_iff {tim : Tim} {m : MotorId} {speed : BitVec 32}
    (own : tim.ccr (pwmChl m) = ccrOf pclk2 speed) :
    tim.waveform (pwmChl m) = (setSpeeds pclk2 [(m, speed)]).tim.waveform (pwmChl m) ↔
      tim.psc = pscOf pclk2 speed ∧ tim.arr = arrOf pclk2 speed := by
  have alone := written pclk2 [(m, speed)]
  obtain ⟨alonePsc, aloneArr⟩ := alone.shared (m, speed) rfl
  have aloneCcr := alone.own m speed (by simp [lastSpeed])
  have positive := (ccrOf_bounds pclk2 speed).1
  simp only [Tim.waveform, alonePsc, aloneArr, aloneCcr, own, Waveform.mk.injEq]
  constructor
  · rintro ⟨period, high⟩
    have psc : tim.psc = pscOf pclk2 speed := by
      have := Nat.eq_of_mul_eq_mul_right positive high
      omega
    rw [psc] at period
    have := Nat.eq_of_mul_eq_mul_left (Nat.succ_pos _) period
    exact ⟨psc, by omega⟩
  · rintro ⟨psc, arr⟩
    rw [psc, arr]
    exact ⟨rfl, rfl⟩

theorem lastSpeed_of_getLast {calls : List (MotorId × BitVec 32)} {call : MotorId × BitVec 32}
    (isLast : calls.getLast? = some call) : lastSpeed call.1 calls = some call.2 := by
  obtain ⟨earlier, rfl⟩ := List.getLast?_eq_some_iff.mp isLast
  simp [lastSpeed_append]

theorem exists_getLast_of_lastSpeed {calls : List (MotorId × BitVec 32)} {m : MotorId}
    {speed : BitVec 32} (called : lastSpeed m calls = some speed) :
    ∃ call, calls.getLast? = some call := by
  cases calls with
  | nil => simp [lastSpeed] at called
  | cons first rest => exact ⟨_, List.getLast?_eq_some_getLast (List.cons_ne_nil first rest)⟩

/-- Every motor's last call asks for what the last call of all left in the
shared registers. -/
theorem shared_iff (calls : List (MotorId × BitVec 32)) :
    (∀ m speed, lastSpeed m calls = some speed →
      (setSpeeds pclk2 calls).tim.psc = pscOf pclk2 speed ∧
        (setSpeeds pclk2 calls).tim.arr = arrOf pclk2 speed) ↔
      ∀ v w, lastSpeed .motor0 calls = some v → lastSpeed .motor1 calls = some w →
        SamePeriod (speedCycles pclk2 v) (speedCycles pclk2 w) := by
  constructor
  · intro all v w first second
    obtain ⟨firstPsc, firstArr⟩ := all .motor0 v first
    obtain ⟨secondPsc, secondArr⟩ := all .motor1 w second
    exact (samePeriod_iff v w).mpr
      ⟨firstPsc.symm.trans secondPsc, firstArr.symm.trans secondArr⟩
  · intro same m speed called
    obtain ⟨⟨k, last⟩, isLast⟩ := exists_getLast_of_lastSpeed called
    obtain ⟨psc, arr⟩ := (written pclk2 calls).shared _ isLast
    have lastCalled := lastSpeed_of_getLast isLast
    rw [psc, arr]
    -- the last call is on this motor, or on the other one with the same period
    cases m <;> cases k
    · obtain rfl : speed = last := Option.some.inj (called.symm.trans lastCalled)
      exact ⟨rfl, rfl⟩
    · obtain ⟨samePsc, sameArr⟩ := (samePeriod_iff speed last).mp (same _ _ called lastCalled)
      exact ⟨samePsc.symm, sameArr.symm⟩
    · exact (samePeriod_iff last speed).mp (same _ _ lastCalled called)
    · obtain rfl : speed = last := Option.some.inj (called.symm.trans lastCalled)
      exact ⟨rfl, rfl⟩

/-- No compare register exceeds the reload that its own motor asked for. -/
theorem ccr_le_of_shared {calls : List (MotorId × BitVec 32)}
    (shared : ∀ m speed, lastSpeed m calls = some speed →
      (setSpeeds pclk2 calls).tim.psc = pscOf pclk2 speed ∧
        (setSpeeds pclk2 calls).tim.arr = arrOf pclk2 speed) (channel : Nat) :
    (setSpeeds pclk2 calls).tim.ccr channel ≤ (setSpeeds pclk2 calls).tim.arr := by
  have regs := written pclk2 calls
  by_cases used : ∃ m speed, lastSpeed m calls = some speed ∧ pwmChl m = channel
  · obtain ⟨m, speed, called, rfl⟩ := used
    rw [regs.own m speed called, (shared m speed called).2]
    exact (ccrOf_bounds pclk2 speed).2
  · rw [regs.unused channel]
    · exact Nat.zero_le _
    · intro m called same
      obtain ⟨speed, called⟩ := Option.ne_none_iff_exists'.mp called
      exact used ⟨m, speed, called, same⟩

/-- After any calls, the two motors are independent exactly when the last call
on the one and the last call on the other, if both have been called, ask for
the same prescaler and reload. -/
theorem motors_independent_iff (pclk2 : BitVec 32) (calls : List (MotorId × BitVec 32)) :
    Independent pclk2 calls ↔
      ∀ v w, lastSpeed .motor0 calls = some v → lastSpeed .motor1 calls = some w →
        SamePeriod (speedCycles pclk2 v) (speedCycles pclk2 w) := by
  rw [← shared_iff]
  have regs := written pclk2 calls
  constructor
  · intro independent m speed called
    exact (waveform_eq_iff (regs.own m speed called)).mp (independent.waveform m speed called)
  · intro shared
    refine ⟨fun m speed called => ?_, ccr_le_of_shared shared⟩
    exact (waveform_eq_iff (regs.own m speed called)).mpr (shared m speed called)

/-- At 84 MHz, a call with half the period on the second motor doubles the rate
of the first and leaves it high for the whole period. -/
theorem second_motor_saturates_first :
    ¬ Independent 84000000 [(.motor0, 100000), (.motor1, 50000)] ∧
      (setSpeeds 84000000 [(.motor0, 100000)]).tim.waveform 1 = ⟨16800, 8399⟩ ∧
      (setSpeeds 84000000 [(.motor0, 100000), (.motor1, 50000)]).tim.waveform 1 =
        ⟨8400, 8399⟩ := by
  have alone : (setSpeeds 84000000 [(.motor0, 100000)]).tim.waveform 1 = ⟨16800, 8399⟩ := by
    decide +kernel
  have both : (setSpeeds 84000000 [(.motor0, 100000), (.motor1, 50000)]).tim.waveform 1 =
      ⟨8400, 8399⟩ := by
    decide +kernel
  refine ⟨fun independent => ?_, alone, both⟩
  have same := independent.waveform .motor0 100000 (by decide)
  rw [show pwmChl .motor0 = 1 from rfl, alone, both] at same
  exact absurd same (by decide)

end RttIctl.Bsp.Motor
