import RttIctl.Lib.Rollover
import Mathlib.Data.List.Induction

/-!
Owns the two quadrature encoders: `encoderInit`, the counters of TIM4 and TIM1
with the update interrupt that keeps the turns, and `getEncoder`, which
reassembles a position from both. A counter runs over `0..MAX_TIMVAL`, so one
turn is `MAX_TIMVAL + 1` counts, and `getEncoder` multiplies the turns by
`MAX_TIMVAL`: the position is right exactly until a counter first rolls over.

It does not own the pins, the filters nor the prescaler of the timers.
-/

namespace RttIctl.Bsp.Encoder

open Lib (Rollover nextPos rollsOver countSign)

/-- `MAX_TIMVAL`, the auto-reload value of both timers. -/
def maxTimval : Nat := 20000

/-- The timers whose counters the encoders drive. -/
inductive Instance where
  | tim1
  | tim4
deriving DecidableEq, Repr

/-- `CNT`, and the direction bit of `CR1`. -/
structure Timer where
  cnt : Fin (maxTimval + 1)
  dir : Bool
deriving DecidableEq

/-- `struct ctrlEncoder`: `rt_uint8_t`, `rt_int32_t` and `rt_int8_t`. -/
structure CtrlEncoder where
  dir : BitVec 8
  val : BitVec 32
  circle : BitVec 8
deriving DecidableEq

/-- The timers and `g_ctrlEnc[MAX_ENCODER]`. -/
structure State where
  tim : Instance → Timer
  ctrlEnc : Fin 2 → CtrlEncoder

/-- The timer behind an entry of `g_ctrlEnc`. -/
def timerOf : Fin 2 → Instance
  | 0 => .tim4
  | 1 => .tim1

/-- `encoderInit`: entries cleared, counters started upwards from zero. What
was in memory before does not matter. -/
def encoderInit : State where
  tim := fun _ => ⟨0, false⟩
  ctrlEnc := fun _ => ⟨0, 0, 0⟩

def State.setCircle (s : State) (k : Fin 2) (circle : BitVec 8) : State :=
  { s with ctrlEnc := Function.update s.ctrlEnc k { s.ctrlEnc k with circle := circle } }

/-- `HAL_TIM_PeriodElapsedCallback`, for the two timers of the encoders. The
`hwtimer` device of neither is opened, so `rt_device_hwtimer_isr` does nothing
to the timer. -/
def halTimPeriodElapsedCallback (s : State) (htim : Instance) : State :=
  match htim with
  | .tim1 =>
      s.setCircle 1
        (if (s.tim .tim1).dir then (s.ctrlEnc 1).circle - 1 else (s.ctrlEnc 1).circle + 1)
  | .tim4 =>
      s.setCircle 0
        (if (s.tim .tim4).dir then (s.ctrlEnc 0).circle - 1 else (s.ctrlEnc 0).circle + 1)

/-- The entries of `g_ctrlEnc`, in the order `getEncoder` fills them. -/
abbrev entry0 : Fin 2 := 0

abbrev entry1 : Fin 2 := 1

/-- The hardware's part of a count: the counter moves, and the direction bit
shows which way. -/
def State.move (s : State) (k : Fin 2) (down : Bool) : State :=
  { s with
    tim := Function.update s.tim (timerOf k) ⟨nextPos (s.tim (timerOf k)).cnt down, down⟩ }

/-- One count of an encoder. The update interrupt of a count that rolls over is
served before the next count. -/
def count (s : State) (k : Fin 2) (down : Bool) : State :=
  if rollsOver (s.tim (timerOf k)).cnt down then
    halTimPeriodElapsedCallback (s.move k down) (timerOf k)
  else s.move k down

/-- `dir` and `val` of one entry. The product has type `int`, the sum is
unsigned, and the assignment converts it back. -/
def sample (timer : Timer) (entry : CtrlEncoder) : CtrlEncoder :=
  { entry with
    dir := if timer.dir then 1 else 0
    val := BitVec.ofNat 32 timer.cnt.val + entry.circle.signExtend 32 * BitVec.ofNat 32 maxTimval }

def getEncoder (s : State) : State :=
  { s with
    ctrlEnc := fun
      | 0 => sample (s.tim .tim4) (s.ctrlEnc 0)
      | 1 => sample (s.tim .tim1) (s.ctrlEnc 1) }

/-- The counts of both encoders in the order they occur. -/
def countAll (s : State) (counts : List (Fin 2 × Bool)) : State :=
  counts.foldl (fun s entry => count s entry.1 entry.2) s

/-- The directions of the counts of one encoder. -/
def countsOf (k : Fin 2) (counts : List (Fin 2 × Bool)) : List Bool :=
  counts.filterMap fun entry => if entry.1 = k then some entry.2 else none

/-- The net signed sum of the counts of one encoder. -/
def net (k : Fin 2) (counts : List (Fin 2 × Bool)) : Int := ((countsOf k counts).map countSign).sum

/-- Does the value fit `rt_int32_t`? -/
def Fits (value : Int) : Prop := -2 ^ 31 ≤ value ∧ value < 2 ^ 31

/-! ### The turns kept by the interrupt -/

/-- An entry and its timer hold the position and, in eight bits, the turns. -/
structure Tracks (s : State) (k : Fin 2) (c : Rollover maxTimval) : Prop where
  pos : (s.tim (timerOf k)).cnt = c.pos
  turns : (s.ctrlEnc k).circle = BitVec.ofInt 8 c.turns

variable {s : State} {k : Fin 2} {c : Rollover maxTimval}

theorem timerOf_ne {j k : Fin 2} (other : j ≠ k) : timerOf j ≠ timerOf k := by
  revert j k
  decide

theorem callback_timerOf (s : State) (k : Fin 2) :
    halTimPeriodElapsedCallback s (timerOf k) =
      s.setCircle k (if (s.tim (timerOf k)).dir then (s.ctrlEnc k).circle - 1
        else (s.ctrlEnc k).circle + 1) :=
  match k with
  | 0 => rfl
  | 1 => rfl

@[simp] theorem count_tim (s : State) (k : Fin 2) (down : Bool) :
    (count s k down).tim = Function.update s.tim (timerOf k)
      ⟨nextPos (s.tim (timerOf k)).cnt down, down⟩ := by
  unfold count
  split
  · rw [callback_timerOf]
    rfl
  · rfl

@[simp] theorem count_circle (s : State) (k : Fin 2) (down : Bool) :
    ((count s k down).ctrlEnc k).circle =
      if rollsOver (s.tim (timerOf k)).cnt down then
        (if down then (s.ctrlEnc k).circle - 1 else (s.ctrlEnc k).circle + 1)
      else (s.ctrlEnc k).circle := by
  unfold count
  split
  · rw [callback_timerOf]
    simp [State.setCircle, State.move]
  · rfl

theorem count_ctrlEnc_other {j : Fin 2} (other : j ≠ k) (down : Bool) :
    (count s j down).ctrlEnc k = s.ctrlEnc k := by
  unfold count
  split
  · rw [callback_timerOf]
    simp [State.setCircle, State.move, Ne.symm other]
  · rfl

theorem count_other {j : Fin 2} (other : j ≠ k) (down : Bool) (tracks : Tracks s k c) :
    Tracks (count s j down) k c := by
  constructor
  · rw [count_tim, Function.update_of_ne (timerOf_ne other).symm, tracks.pos]
  · rw [count_ctrlEnc_other other, tracks.turns]

private theorem ofInt_turn (turns : Int) (down : Bool) :
    BitVec.ofInt 8 (turns + countSign down) =
      if down then BitVec.ofInt 8 turns - 1 else BitVec.ofInt 8 turns + 1 := by
  cases down with
  | false =>
      simp only [countSign, Bool.false_eq_true, if_false]
      rw [BitVec.ofInt_add]
      rfl
  | true =>
      simp only [countSign, if_true]
      rw [BitVec.ofInt_add, BitVec.sub_eq_add_neg]
      rfl

/-- One count keeps the entry in step with the counter of the library. -/
theorem count_tracks (down : Bool) (tracks : Tracks s k c) :
    Tracks (count s k down) k (c.count down) := by
  constructor
  · simp [Rollover.count, tracks.pos]
  · rw [count_circle, tracks.pos, tracks.turns, Rollover.count]
    cases rollsOver c.pos down with
    | true => exact (ofInt_turn c.turns down).symm
    | false => rfl

theorem countAll_tracks (counts : List (Fin 2 × Bool)) (tracks : Tracks s k c) :
    Tracks (countAll s counts) k (c.counts (countsOf k counts)) := by
  induction counts generalizing s c with
  | nil => exact tracks
  | cons entry rest inductionHypothesis =>
      obtain ⟨j, down⟩ := entry
      by_cases same : j = k
      · subst same
        simpa [countAll, countsOf, Rollover.counts] using
          inductionHypothesis (count_tracks down tracks)
      · simpa [countAll, countsOf, Rollover.counts, same] using
          inductionHypothesis (count_other same down tracks)

theorem encoderInit_tracks (k : Fin 2) : Tracks encoderInit k .start := ⟨rfl, rfl⟩

/-- After any counts, an entry stands for the net count, in a position and a
number of turns. -/
theorem counted (counts : List (Fin 2 × Bool)) (k : Fin 2) :
    ∃ c : Rollover maxTimval,
      Tracks (countAll encoderInit counts) k c ∧ c.value = net k counts := by
  refine ⟨_, countAll_tracks counts (encoderInit_tracks k), ?_⟩
  rw [Rollover.value_counts]
  simp [Rollover.start, Rollover.value, net]

/-! ### The position read back -/

theorem getEncoder_val (s : State) (k : Fin 2) :
    ((getEncoder s).ctrlEnc k).val = (sample (s.tim (timerOf k)) (s.ctrlEnc k)).val :=
  match k with
  | 0 => rfl
  | 1 => rfl

private theorem bmod_of_fits {value : Int} (fits : Fits value) : value.bmod (2 ^ 32) = value := by
  obtain ⟨low, high⟩ := fits
  exact Int.bmod_eq_of_le_mul_two (by norm_num; omega) (by norm_num; omega)

/-- `val` as an integer: neither the product nor the sum wraps, whatever the
turns. -/
theorem val_toInt (tracks : Tracks s k c) :
    ((getEncoder s).ctrlEnc k).val.toInt =
      c.pos.val + (BitVec.ofInt 8 c.turns).toInt * maxTimval := by
  have posLe : c.pos.val ≤ maxTimval := Nat.le_of_lt_succ c.pos.isLt
  have low := BitVec.le_toInt (BitVec.ofInt 8 c.turns)
  have high : (BitVec.ofInt 8 c.turns).toInt < 2 ^ (8 - 1) := BitVec.toInt_lt
  rw [getEncoder_val, sample, tracks.pos, tracks.turns]
  simp only [BitVec.toInt_add, BitVec.toInt_mul, BitVec.toInt_ofNat',
    BitVec.toInt_signExtend_of_le (show 8 ≤ 32 by decide)]
  generalize (BitVec.ofInt 8 c.turns).toInt = circle at low high
  norm_num at low high
  have factor : Fits maxTimval := by
    unfold Fits maxTimval
    omega
  have position : Fits c.pos.val := by
    unfold Fits maxTimval at *
    omega
  have product : Fits (circle * maxTimval) := by
    unfold Fits maxTimval at *
    omega
  have whole : Fits (c.pos.val + circle * maxTimval) := by
    unfold Fits maxTimval at *
    omega
  rw [bmod_of_fits factor, bmod_of_fits position, bmod_of_fits product, bmod_of_fits whole]

/-- Eight bits of turns and a multiplier one short of a turn give back the net
count only while there are no turns at all. -/
theorem val_eq_value_iff (tracks : Tracks s k c) :
    ((getEncoder s).ctrlEnc k).val.toInt = c.value ↔ c.turns = 0 := by
  have low := BitVec.le_toInt (BitVec.ofInt 8 c.turns)
  have high : (BitVec.ofInt 8 c.turns).toInt < 2 ^ (8 - 1) := BitVec.toInt_lt
  have wrapped : (BitVec.ofInt 8 c.turns).toInt + 256 * c.turns.bdiv 256 = c.turns := by
    rw [BitVec.toInt_ofInt]
    exact Int.bmod_add_bdiv c.turns 256
  rw [val_toInt tracks, Rollover.value]
  generalize (BitVec.ofInt 8 c.turns).toInt = circle at low high wrapped
  norm_num at low high
  simp only [maxTimval]
  constructor
  · intro same
    have product : circle * 20000 = c.turns * 20001 := by
      push_cast at same
      omega
    omega
  · intro none
    have cleared : circle = 0 := by omega
    rw [none, cleared]
    simp

/-! ### Every prefix of every sequence -/

theorem net_append (k : Fin 2) (past : List (Fin 2 × Bool)) (entry : Fin 2 × Bool) :
    net k (past ++ [entry]) = net k past + if entry.1 = k then countSign entry.2 else 0 := by
  by_cases same : entry.1 = k
  · simp [net, countsOf, same]
  · simp [net, countsOf, same]

theorem val_eq_net_iff (past : List (Fin 2 × Bool)) (k : Fin 2) :
    ((getEncoder (countAll encoderInit past)).ctrlEnc k).val.toInt = net k past ↔
      0 ≤ net k past ∧ net k past ≤ maxTimval := by
  obtain ⟨c, tracks, value⟩ := counted past k
  rw [← value, val_eq_value_iff tracks, Rollover.turns_eq_zero_iff]

/-- After every prefix of any counts, in any order, of the two encoders,
`getEncoder` yields the net counts (as far as they fit `rt_int32_t`) exactly
when the net count of neither encoder ever leaves `0..MAX_TIMVAL`. -/
theorem getEncoder_eq_net_iff (counts : List (Fin 2 × Bool)) :
    (∀ past, past <+: counts → ∀ k, Fits (net k past) →
      ((getEncoder (countAll encoderInit past)).ctrlEnc k).val.toInt = net k past) ↔
    ∀ past, past <+: counts → ∀ k, 0 ≤ net k past ∧ net k past ≤ maxTimval := by
  constructor
  · intro agrees past
    induction past using List.reverseRecOn with
    | nil =>
        intro _ k
        simp [net, countsOf]
    | append_singleton past entry inductionHypothesis =>
        intro isPast k
        have before := inductionHypothesis ((List.prefix_append past [entry]).trans isPast) k
        have fits : Fits (net k (past ++ [entry])) := by
          rw [net_append]
          unfold Fits maxTimval countSign at *
          split
          · split <;> omega
          · omega
        exact (val_eq_net_iff _ k).mp (agrees _ isPast k fits)
  · intro inRange past isPast k _
    exact (val_eq_net_iff past k).mpr (inRange past isPast k)

/-- One count down from zero: the counter goes to `MAX_TIMVAL`, the turns to
`-1`, and the position reads zero. -/
theorem getEncoder_loses_count :
    Fits (net 0 [(0, true)]) ∧ net 0 [(0, true)] = -1 ∧
      ((getEncoder (countAll encoderInit [(0, true)])).ctrlEnc 0).val.toInt = 0 := by
  have isNet : net 0 [(0, true)] = -1 := by decide
  refine ⟨?_, isNet, by decide⟩
  rw [isNet]
  unfold Fits
  omega

end RttIctl.Bsp.Encoder
