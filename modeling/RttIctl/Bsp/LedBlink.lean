import RttIctl.Bsp.Lamp
import RttIctl.Lib.Stamp

/-!
Owns the blink timing. A blinking LED is polled at times at most `gap` ticks
apart, seen as 32-bit stamps; its phase clock adds up the differences of the
stamps and starts again when the stamp wraps. The first poll that is no wrap
changes the level, and from then on every phase lasts its time and at most one
gap more, or at most twice that when the stamp wraps in it.

It does not own the polling thread.
-/

namespace RttIctl.Bsp

open Lib

namespace Lamp

/-! ### One poll of a blinking lamp -/

/-- The time of the phase the lamp is in: `onTick` while it is lit. -/
def phaseTick (lamp : Lamp) : UInt32 :=
  if lamp.level = bspLedOn then lamp.record.onTick else lamp.record.offTick

/-- Both blink times are set. -/
def Blinking (lamp : Lamp) : Prop := lamp.record.onTick ≠ 0 ∧ lamp.record.offTick ≠ 0

/-- The record after a poll that is no wrap, with the phase clock given. -/
def ticked (lamp : Lamp) (systick tick : UInt32) : LedBlink :=
  { lamp.record with tick := tick, lstSysTick := systick, trig := 0 }

variable {lamp : Lamp} {systick : UInt32}

theorem output_of_blinking (blinking : lamp.Blinking) : lamp.output = lamp := by
  rw [output, if_neg]
  exact fun quiet => blinking.1 quiet.1

/-- The level changes on the trigger and when the phase clock is past the time
of the phase. -/
theorem nextStatus_eq (blinking : lamp.Blinking) (tick : UInt32) :
    CCtrlLED.nextStatus { lamp.record with tick := tick } lamp.level =
      if lamp.record.trig ≠ 0 ∨ lamp.phaseTick < tick then lamp.level.toggled else lamp.level := by
  obtain ⟨onTick, offTick⟩ := blinking
  cases lit : lamp.level with
  | low =>
      simp only [CCtrlLED.nextStatus, bspLedOn, if_true, phaseTick, lit, Ne.symm offTick,
        ne_eq, not_false_eq_true, true_and]
      rfl
  | high =>
      simp only [CCtrlLED.nextStatus, bspLedOn, phaseTick, lit, Ne.symm onTick, ne_eq,
        not_false_eq_true, true_and, reduceCtorEq, if_false]
      rfl

theorem toggled_ne (level : PinLevel) : level.toggled ≠ level := by
  cases level <;> decide

theorem poll_wrap (blinking : lamp.Blinking) (wrapped : systick < lamp.record.lstSysTick) :
    lamp.poll systick =
      { lamp with record := { lamp.record with lstSysTick := systick, tick := 0 } } := by
  rw [poll, output_of_blinking blinking, blink, if_pos wrapped]

theorem poll_change (blinking : lamp.Blinking) (forward : ¬ systick < lamp.record.lstSysTick)
    (due : lamp.record.trig ≠ 0 ∨
      lamp.phaseTick < lamp.record.tick + (systick - lamp.record.lstSysTick)) :
    lamp.poll systick =
      ⟨lamp.ticked systick 0, lamp.level.toggled, lamp.level.toggled⟩ := by
  have next := nextStatus_eq blinking (lamp.record.tick + (systick - lamp.record.lstSysTick))
  rw [if_pos due] at next
  rw [poll, output_of_blinking blinking, blink, if_neg forward]
  dsimp only
  rw [next, if_pos (toggled_ne _)]
  rfl

theorem poll_stay (blinking : lamp.Blinking) (forward : ¬ systick < lamp.record.lstSysTick)
    (early : ¬ (lamp.record.trig ≠ 0 ∨
      lamp.phaseTick < lamp.record.tick + (systick - lamp.record.lstSysTick))) :
    lamp.poll systick =
      { lamp with
        record := lamp.ticked systick
          (lamp.record.tick + (systick - lamp.record.lstSysTick)) } := by
  have next := nextStatus_eq blinking (lamp.record.tick + (systick - lamp.record.lstSysTick))
  rw [if_neg early] at next
  rw [poll, output_of_blinking blinking, blink, if_neg forward]
  dsimp only
  rw [next, if_neg (not_not_intro rfl)]
  rfl

/-! ### A sequence of polls -/

/-- The lamp after `k` polls at the given times. -/
def polled (lamp : Lamp) (time : Nat → Nat) : Nat → Lamp
  | 0 => lamp
  | k + 1 => (polled lamp time k).poll (stamp (time k))

/-- Poll `k` changes the level. -/
def ChangesAt (lamp : Lamp) (time : Nat → Nat) (k : Nat) : Prop :=
  (lamp.polled time (k + 1)).level ≠ (lamp.polled time k).level

end Lamp

/-- The stamp taken before poll `k`: by the poll before it, or by `blinkOn`. -/
def stampBefore (rtTickGet : UInt32) (time : Nat → Nat) : Nat → UInt32
  | 0 => rtTickGet
  | k + 1 => stamp (time k)

/-- Poll `k` is a wrap of the counter: its stamp is below the one before it. -/
def WrapsAt (rtTickGet : UInt32) (time : Nat → Nat) (k : Nat) : Prop :=
  stamp (time k) < stampBefore rtTickGet time k

/-- Polls in order of time and at most `gap` ticks apart. -/
def Spaced (time : Nat → Nat) (gap : Nat) : Prop :=
  ∀ k, time k ≤ time (k + 1) ∧ time (k + 1) ≤ time k + gap

/-- The time of a phase at a level. -/
def phaseTicks (onTick offTick : UInt32) (level : PinLevel) : Nat :=
  if level = bspLedOn then onTick.toNat else offTick.toNat

/-- A lamp right after `blinkOn`, with blink times that leave room for two gaps
in half a turn of the counter. -/
structure BlinkStart (lamp : Lamp) (onTick offTick rtTickGet : UInt32) (gap : Nat) : Prop where
  record : lamp.record = ⟨onTick, offTick, rtTickGet, 0, 1⟩
  onPositive : 0 < onTick.toNat
  offPositive : 0 < offTick.toNat
  onShort : onTick.toNat + 2 * gap < 2 ^ 31
  offShort : offTick.toNat + 2 * gap < 2 ^ 31

section

variable {lamp : Lamp} {onTick offTick rtTickGet : UInt32} {gap : Nat} {time : Nat → Nat}

theorem BlinkStart.phase_lt (start : BlinkStart lamp onTick offTick rtTickGet gap)
    (level : PinLevel) : phaseTicks onTick offTick level + 2 * gap < 2 ^ 31 := by
  unfold phaseTicks
  split
  · exact start.onShort
  · exact start.offShort

/-! ### What every poll keeps -/

/-- The blink times stay, and the record holds the stamp of the last poll. -/
structure Timed (lamp : Lamp) (onTick offTick rtTickGet : UInt32) (time : Nat → Nat) (k : Nat) :
    Prop where
  onTick : (lamp.polled time k).record.onTick = onTick
  offTick : (lamp.polled time k).record.offTick = offTick
  stamp : (lamp.polled time k).record.lstSysTick = stampBefore rtTickGet time k

theorem BlinkStart.blinking (start : BlinkStart lamp onTick offTick rtTickGet gap) {k : Nat}
    (timed : Timed lamp onTick offTick rtTickGet time k) : (lamp.polled time k).Blinking := by
  have onPositive := start.onPositive
  have offPositive := start.offPositive
  constructor
  · rw [timed.onTick]
    rintro rfl
    exact absurd onPositive (by decide)
  · rw [timed.offTick]
    rintro rfl
    exact absurd offPositive (by decide)

theorem Timed.phaseTick {k : Nat} (timed : Timed lamp onTick offTick rtTickGet time k) :
    (lamp.polled time k).phaseTick.toNat =
      phaseTicks onTick offTick (lamp.polled time k).level := by
  unfold Lamp.phaseTick phaseTicks
  split
  · rw [timed.onTick]
  · rw [timed.offTick]

theorem Timed.wraps_iff {k : Nat} (timed : Timed lamp onTick offTick rtTickGet time k) :
    Lib.stamp (time k) < (lamp.polled time k).record.lstSysTick ↔ WrapsAt rtTickGet time k := by
  rw [timed.stamp]
  rfl

theorem BlinkStart.timed (start : BlinkStart lamp onTick offTick rtTickGet gap)
    (time : Nat → Nat) (k : Nat) : Timed lamp onTick offTick rtTickGet time k := by
  induction k with
  | zero => constructor <;> simp only [Lamp.polled, start.record, stampBefore]
  | succ k inductionHypothesis =>
      have blinking := start.blinking inductionHypothesis
      have onKept := inductionHypothesis.onTick
      have offKept := inductionHypothesis.offTick
      by_cases wrapped : Lib.stamp (time k) < (lamp.polled time k).record.lstSysTick
      · constructor <;> rw [Lamp.polled, Lamp.poll_wrap blinking wrapped]
        · exact onKept
        · exact offKept
        · rfl
      · by_cases due : (lamp.polled time k).record.trig ≠ 0 ∨ (lamp.polled time k).phaseTick <
            (lamp.polled time k).record.tick +
              (Lib.stamp (time k) - (lamp.polled time k).record.lstSysTick)
        · constructor <;> rw [Lamp.polled, Lamp.poll_change blinking wrapped due]
          · exact onKept
          · exact offKept
          · rfl
        · constructor <;> rw [Lamp.polled, Lamp.poll_stay blinking wrapped due]
          · exact onKept
          · exact offKept
          · rfl

/-- A wrap changes no level. -/
theorem BlinkStart.not_changes_of_wraps (start : BlinkStart lamp onTick offTick rtTickGet gap)
    {k : Nat} (wraps : WrapsAt rtTickGet time k) : ¬ lamp.ChangesAt time k := by
  have timed := start.timed time k
  rw [Lamp.ChangesAt, Lamp.polled,
    Lamp.poll_wrap (start.blinking timed) (timed.wraps_iff.mpr wraps)]
  exact not_not_intro rfl

/-! ### Before the first change -/

/-- Only wraps so far: the trigger is still set. -/
structure Waiting (lamp : Lamp) (rtTickGet : UInt32) (time : Nat → Nat) (k : Nat) : Prop where
  trig : (lamp.polled time k).record.trig = 1
  wraps : ∀ j < k, WrapsAt rtTickGet time j

/-! ### In a phase -/

/-- After poll `k` the lamp is in the phase that poll `a` began. The phase clock
runs from `base`: the poll that began the phase, or a wrap since then, which
came in time. -/
structure InPhase (lamp : Lamp) (onTick offTick rtTickGet : UInt32) (gap : Nat)
    (time : Nat → Nat) (a k : Nat) : Prop where
  begun : a ≤ k
  change : lamp.ChangesAt time a
  quiet : ∀ j, a < j → j ≤ k → ¬ lamp.ChangesAt time j
  level : (lamp.polled time (k + 1)).level = (lamp.polled time (a + 1)).level
  agree : (lamp.polled time (k + 1)).cached = (lamp.polled time (k + 1)).level
  trig : (lamp.polled time (k + 1)).record.trig = 0
  clock : ∃ base, time a ≤ base ∧ base ≤ time k ∧
    (lamp.polled time (k + 1)).record.tick.toNat = time k - base ∧
    time k - base ≤ phaseTicks onTick offTick (lamp.polled time (a + 1)).level ∧
    (base = time a ∨
      (∃ w, a < w ∧ w ≤ k ∧ WrapsAt rtTickGet time w) ∧
        base ≤ time a + phaseTicks onTick offTick (lamp.polled time (a + 1)).level + gap ∧
        base % 2 ^ 32 ≤ gap)

/-- The condition under which a poll that is no wrap changes the level. -/
def DueAt (lamp : Lamp) (time : Nat → Nat) (k : Nat) : Prop :=
  (lamp.polled time k).record.trig ≠ 0 ∨ (lamp.polled time k).phaseTick <
    (lamp.polled time k).record.tick +
      (Lib.stamp (time k) - (lamp.polled time k).record.lstSysTick)

theorem BlinkStart.changes_iff (start : BlinkStart lamp onTick offTick rtTickGet gap) {k : Nat}
    (forward : ¬ WrapsAt rtTickGet time k) : lamp.ChangesAt time k ↔ DueAt lamp time k := by
  have timed := start.timed time k
  have blinking := start.blinking timed
  rw [← timed.wraps_iff] at forward
  by_cases due : DueAt lamp time k
  · rw [Lamp.ChangesAt, Lamp.polled, Lamp.poll_change blinking forward due]
    exact iff_of_true (Lamp.toggled_ne _) due
  · rw [Lamp.ChangesAt, Lamp.polled, Lamp.poll_stay blinking forward due]
    exact iff_of_false (not_not_intro rfl) due

/-- A poll that changes the level begins a phase. -/
theorem BlinkStart.inPhase_begin (start : BlinkStart lamp onTick offTick rtTickGet gap) {k : Nat}
    (forward : ¬ WrapsAt rtTickGet time k) (due : DueAt lamp time k) :
    InPhase lamp onTick offTick rtTickGet gap time k k := by
  have timed := start.timed time k
  have changed := Lamp.poll_change (start.blinking timed)
    (fun wrapped => forward (timed.wraps_iff.mp wrapped)) due
  have after : lamp.polled time (k + 1) = _ := changed
  refine ⟨Nat.le_refl _, (start.changes_iff forward).mpr due, fun j above below => ?_, rfl, ?_, ?_,
    time k, Nat.le_refl _, Nat.le_refl _, ?_, ?_, .inl rfl⟩
  · omega
  · rw [after]
  · rw [after]
    rfl
  · rw [after, Nat.sub_self]
    rfl
  · omega

theorem Waiting.next_of_wraps (start : BlinkStart lamp onTick offTick rtTickGet gap) {k : Nat}
    (waiting : Waiting lamp rtTickGet time k) (wraps : WrapsAt rtTickGet time k) :
    Waiting lamp rtTickGet time (k + 1) := by
  have timed := start.timed time k
  constructor
  · rw [Lamp.polled, Lamp.poll_wrap (start.blinking timed) (timed.wraps_iff.mpr wraps)]
    exact waiting.trig
  · intro j below
    rcases Nat.lt_succ_iff_lt_or_eq.mp below with earlier | rfl
    · exact waiting.wraps j earlier
    · exact wraps

/-- The trigger makes any poll that is no wrap a change. -/
theorem Waiting.due {k : Nat} (waiting : Waiting lamp rtTickGet time k) : DueAt lamp time k := by
  refine .inl ?_
  rw [waiting.trig]
  decide

section

variable {a k : Nat} (start : BlinkStart lamp onTick offTick rtTickGet gap)
  (spaced : Spaced time gap) (phase : InPhase lamp onTick offTick rtTickGet gap time a k)

include start spaced phase

omit phase in
/-- A second wrap in one phase is out of reach. -/
theorem BlinkStart.no_second_wrap {base : Nat} (since : base ≤ time k)
    (inTime : time k - base ≤ phaseTicks onTick offTick (lamp.polled time (a + 1)).level)
    (fresh : base % 2 ^ 32 ≤ gap) : ¬ WrapsAt rtTickGet time (k + 1) := by
  obtain ⟨ordered, near⟩ := spaced k
  have short := start.phase_lt (lamp.polled time (a + 1)).level
  intro wraps
  have crossed := (stamp_lt_iff ordered (by omega)).mp wraps
  omega

theorem InPhase.next_of_wraps (wraps : WrapsAt rtTickGet time (k + 1)) :
    InPhase lamp onTick offTick rtTickGet gap time a (k + 1) := by
  obtain ⟨ordered, near⟩ := spaced k
  have short := start.phase_lt (lamp.polled time (a + 1)).level
  have timed := start.timed time (k + 1)
  have after : lamp.polled time (k + 1 + 1) = _ :=
    Lamp.poll_wrap (start.blinking timed) (timed.wraps_iff.mpr wraps)
  have begun := phase.begun
  obtain ⟨base, afterBegin, since, tick, inTime, origin⟩ := phase.clock
  refine ⟨by omega, phase.change, fun j above below => ?_, ?_, ?_, ?_, time (k + 1), by omega,
    Nat.le_refl _, ?_, ?_, .inr ⟨⟨k + 1, by omega, Nat.le_refl _, wraps⟩, ?_, ?_⟩⟩
  · rcases Nat.lt_succ_iff_lt_or_eq.mp (Nat.lt_succ_of_le below) with earlier | rfl
    · exact phase.quiet j above (by omega)
    · exact start.not_changes_of_wraps wraps
  · rw [after, ← phase.level]
  · rw [after]
    exact phase.agree
  · rw [after]
    exact phase.trig
  · rw [after, Nat.sub_self]
    rfl
  · omega
  · rcases origin with same | ⟨-, -, fresh⟩
    · omega
    · exact absurd wraps (start.no_second_wrap spaced since inTime fresh)
  · have crossed := (stamp_lt_iff ordered (by omega)).mp wraps
    omega

theorem InPhase.next_of_early (forward : ¬ WrapsAt rtTickGet time (k + 1))
    (early : ¬ DueAt lamp time (k + 1)) :
    InPhase lamp onTick offTick rtTickGet gap time a (k + 1) := by
  obtain ⟨ordered, near⟩ := spaced k
  have short := start.phase_lt (lamp.polled time (a + 1)).level
  have timed := start.timed time (k + 1)
  have after : lamp.polled time (k + 1 + 1) = _ := Lamp.poll_stay (start.blinking timed)
    (fun wrapped => forward (timed.wraps_iff.mp wrapped)) early
  have begun := phase.begun
  obtain ⟨base, afterBegin, since, tick, inTime, origin⟩ := phase.clock
  have elapsed : ((lamp.polled time (k + 1)).record.tick + (Lib.stamp (time (k + 1)) -
      (lamp.polled time (k + 1)).record.lstSysTick)).toNat = time (k + 1) - base := by
    rw [timed.stamp]
    exact toNat_add_stamp_sub tick since ordered (by omega)
  have notYet : time (k + 1) - base ≤
      phaseTicks onTick offTick (lamp.polled time (a + 1)).level := by
    have below : ¬ (lamp.polled time (k + 1)).phaseTick < _ := fun past => early (.inr past)
    rw [UInt32.lt_iff_toNat_lt, elapsed, timed.phaseTick, phase.level] at below
    omega
  refine ⟨by omega, phase.change, fun j above below => ?_, ?_, ?_, ?_, base, afterBegin, by omega,
    ?_, notYet, ?_⟩
  · rcases Nat.lt_succ_iff_lt_or_eq.mp (Nat.lt_succ_of_le below) with earlier | rfl
    · exact phase.quiet j above (by omega)
    · rw [start.changes_iff forward]
      exact early
  · rw [after, ← phase.level]
  · rw [after]
    exact phase.agree
  · rw [after]
    rfl
  · rw [after]
    exact elapsed
  · refine origin.imp id ?_
    rintro ⟨⟨w, above, below, wraps⟩, rest⟩
    exact ⟨⟨w, above, by omega, wraps⟩, rest⟩

/-- How long the phase has lasted at the next poll, whether or not that poll
ends it. -/
theorem InPhase.next_bounds :
    time (k + 1) - time a ≤
        2 * (phaseTicks onTick offTick (lamp.polled time (a + 1)).level + gap) ∧
      ((∀ j, a < j → j ≤ k + 1 → ¬ WrapsAt rtTickGet time j) → time (k + 1) - time a ≤
        phaseTicks onTick offTick (lamp.polled time (a + 1)).level + gap) ∧
      (lamp.ChangesAt time (k + 1) →
        phaseTicks onTick offTick (lamp.polled time (a + 1)).level < time (k + 1) - time a) := by
  obtain ⟨ordered, near⟩ := spaced k
  have short := start.phase_lt (lamp.polled time (a + 1)).level
  have timed := start.timed time (k + 1)
  obtain ⟨base, afterBegin, since, tick, inTime, origin⟩ := phase.clock
  refine ⟨?_, fun steady => ?_, fun changes => ?_⟩
  · rcases origin with same | ⟨-, soon, -⟩ <;> omega
  · rcases origin with same | ⟨⟨w, above, below, wraps⟩, -⟩
    · omega
    · exact absurd wraps (steady w above (by omega))
  · have forward : ¬ WrapsAt rtTickGet time (k + 1) :=
      fun wraps => start.not_changes_of_wraps wraps changes
    have elapsed : ((lamp.polled time (k + 1)).record.tick + (Lib.stamp (time (k + 1)) -
        (lamp.polled time (k + 1)).record.lstSysTick)).toNat = time (k + 1) - base := by
      rw [timed.stamp]
      exact toNat_add_stamp_sub tick since ordered (by omega)
    rcases (start.changes_iff forward).mp changes with triggered | past
    · exact absurd phase.trig triggered
    · rw [UInt32.lt_iff_toNat_lt, elapsed, timed.phaseTick, phase.level] at past
      omega

end

/-- After any number of polls the lamp waits for its first change or is in a
phase. -/
theorem BlinkStart.waiting_or_inPhase (start : BlinkStart lamp onTick offTick rtTickGet gap)
    (spaced : Spaced time gap) (k : Nat) :
    Waiting lamp rtTickGet time k ∨
      ∃ a last, k = last + 1 ∧ InPhase lamp onTick offTick rtTickGet gap time a last := by
  induction k with
  | zero =>
      refine .inl ⟨?_, fun j below => absurd below (Nat.not_lt_zero j)⟩
      rw [Lamp.polled, start.record]
  | succ k inductionHypothesis =>
      by_cases wraps : WrapsAt rtTickGet time k
      · rcases inductionHypothesis with waiting | ⟨a, last, rfl, phase⟩
        · exact .inl (waiting.next_of_wraps start wraps)
        · exact .inr ⟨a, last + 1, rfl, phase.next_of_wraps start spaced wraps⟩
      · by_cases due : DueAt lamp time k
        · exact .inr ⟨k, k, rfl, start.inPhase_begin wraps due⟩
        · rcases inductionHypothesis with waiting | ⟨a, last, rfl, phase⟩
          · exact absurd waiting.due due
          · exact .inr ⟨a, last + 1, rfl, phase.next_of_early start spaced wraps due⟩

end

/-! ### The phases of a blinking LED -/

/-- A sequence of pin levels and cached bits, one after each poll, with the
phases of a blinking LED: the first poll that is no wrap changes the level; a
phase begun by poll `a` has lasted, at every poll `b` up to the one that ends
it, at most its time and one gap, or twice that when a wrap falls into it, and
it ends only after its time; from the first change on, pin and cached bit
agree. -/
structure BlinkPhases (level cached : Nat → PinLevel) (onTick offTick rtTickGet : UInt32)
    (gap : Nat) (time : Nat → Nat) : Prop where
  first : ∀ k, (∀ j < k, WrapsAt rtTickGet time j) → ¬ WrapsAt rtTickGet time k →
    (∀ j < k, level (j + 1) = level j) ∧ level (k + 1) ≠ level k
  bounds : ∀ a b, a < b → level (a + 1) ≠ level a →
    (∀ j, a < j → j < b → level (j + 1) = level j) →
    (level (b + 1) ≠ level b → phaseTicks onTick offTick (level (a + 1)) < time b - time a) ∧
    ((∀ j, a < j → j ≤ b → ¬ WrapsAt rtTickGet time j) →
      time b - time a ≤ phaseTicks onTick offTick (level (a + 1)) + gap) ∧
    time b - time a ≤ 2 * (phaseTicks onTick offTick (level (a + 1)) + gap)
  agree : ∀ a k, a < k → level (a + 1) ≠ level a → cached k = level k

theorem BlinkStart.phases {lamp : Lamp} {onTick offTick rtTickGet : UInt32} {gap : Nat}
    {time : Nat → Nat} (start : BlinkStart lamp onTick offTick rtTickGet gap)
    (spaced : Spaced time gap) :
    BlinkPhases (fun k => (lamp.polled time k).level) (fun k => (lamp.polled time k).cached)
      onTick offTick rtTickGet gap time := by
  constructor
  · intro k wrapped forward
    have still : ∀ j < k, ¬ lamp.ChangesAt time j :=
      fun j below => start.not_changes_of_wraps (wrapped j below)
    refine ⟨fun j below => not_not.mp (still j below), ?_⟩
    rcases start.waiting_or_inPhase spaced k with waiting | ⟨a, last, rfl, phase⟩
    · exact (start.changes_iff forward).mpr waiting.due
    · exact absurd phase.change (still a (Nat.lt_succ_of_le phase.begun))
  · intro a b before changes still
    rcases start.waiting_or_inPhase spaced b with waiting | ⟨begin_, last, rfl, phase⟩
    · exact absurd changes (start.not_changes_of_wraps (waiting.wraps a before))
    · -- the phase at hand is the one begun by the last change
      obtain rfl : begin_ = a := by
        rcases Nat.lt_trichotomy begin_ a with earlier | same | later
        · exact absurd changes (phase.quiet a earlier (Nat.le_of_lt_succ before))
        · exact same
        · have begun := phase.begun
          exact absurd (still begin_ later (Nat.lt_succ_of_le begun)) phase.change
      obtain ⟨twice, once, least⟩ := phase.next_bounds start spaced
      exact ⟨least, once, twice⟩
  · intro a k before changes
    rcases start.waiting_or_inPhase spaced k with waiting | ⟨begin_, last, rfl, phase⟩
    · exact absurd changes (start.not_changes_of_wraps (waiting.wraps a before))
    · exact phase.agree

/-! ### Polls of the whole object -/

/-- A poll that covers LED `i`. -/
def LedCall.Polls (i : Nat) : LedCall → Prop
  | .outputDO idx _ => idx = 0xFF ∨ idx.toNat = i
  | _ => False

theorem LedCall.act_of_untouched {i : Nat} {call : LedCall} (other : ¬ call.Names i)
    (unpolled : ¬ call.Polls i) (lamp : Lamp) : call.act i lamp = lamp := by
  cases call with
  | outputDO idx systick => exact if_neg unpolled
  | setDO idx state => exact if_neg other
  | setRtDO idx state => exact if_neg other
  | toggleDO idx => exact if_neg other
  | blinkOn idx onms offms rtTickGet => exact if_neg other
  | blinkOff idx => exact if_neg other
  | on idx => exact if_neg other
  | off idx => exact if_neg other
  | toggle idx => exact if_neg other

theorem LedCall.acts_of_untouched {i : Nat} {calls : List LedCall}
    (others : ∀ call ∈ calls, ¬ call.Names i ∧ ¬ call.Polls i) (lamp : Lamp) :
    calls.foldl (fun lamp call => call.act i lamp) lamp = lamp := by
  induction calls with
  | nil => rfl
  | cons call rest inductionHypothesis =>
      obtain ⟨here, later⟩ := List.forall_mem_cons.mp others
      rw [List.foldl_cons, act_of_untouched here.1 here.2]
      exact inductionHypothesis later

/-- The object after `k` polls of all LEDs, with other operations before each of
them. -/
def blinkRun (object : CCtrlLED) (others : Nat → List LedCall) (time : Nat → Nat) :
    Nat → Option CCtrlLED
  | 0 => some object
  | k + 1 => do
      let self ← blinkRun object others time k
      let self ← LedCall.runAll self (others k)
      self.outputDO 0xFF (stamp (time k))

/-- Every run of polls returns, and the lamp of an LED that nothing else touches
is polled at their stamps. -/
theorem LedWired.blinkRun_lamp {object : CCtrlLED} {pins : List UInt16}
    (wired : LedWired object pins) (i : Fin pins.length) {others : Nat → List LedCall}
    (untouched : ∀ k, ∀ call ∈ others k,
      call.InRange pins.length ∧ ¬ call.Names i ∧ ¬ call.Polls i)
    (time : Nat → Nat) (k : Nat) :
    ∃ after, blinkRun object others time k = some after ∧ LedWired after pins ∧
      after.lamp pins i = (object.lamp pins i).polled time k := by
  induction k with
  | zero => exact ⟨object, rfl, wired, rfl⟩
  | succ k inductionHypothesis =>
      obtain ⟨before, ran, beforeWired, beforeLamp⟩ := inductionHypothesis
      obtain ⟨between, ranOthers, betweenWired, betweenLamps⟩ :=
        beforeWired.acts_runAll fun call member => (untouched k call member).1
      obtain ⟨after, ranPoll, afterWired, afterLamps⟩ :=
        betweenWired.acts_outputDO (stamp (time k)) (.inl rfl)
      refine ⟨after, ?_, afterWired, ?_⟩
      · rw [blinkRun, ran, Option.bind_eq_bind, Option.bind_some, ranOthers]
        exact ranPoll
      · have same := betweenLamps i
        dsimp only at same
        rw [LedCall.acts_of_untouched fun call member => (untouched k call member).2] at same
        rw [afterLamps, same, beforeLamp]
        simp only [LedCall.act, true_or, if_true]
        rfl

/-- From any state of an LED object in order, `blinkOn` with blink times that
are not zero and leave room for two gaps in half a turn of the counter starts
the phases: over polls of all LEDs at most `gap` ticks apart, with any
operations on other LEDs in between. -/
theorem blinkOn_phases (object : CCtrlLED) (pins : List UInt16) (wired : LedWired object pins)
    (idx : UInt8) (inside : idx.toNat < pins.length) (onms offms rtTickGet : UInt32) (gap : Nat)
    (onPositive : 0 < (rtTickFromMillisecond onms).toNat)
    (offPositive : 0 < (rtTickFromMillisecond offms).toNat)
    (onShort : (rtTickFromMillisecond onms).toNat + 2 * gap < 2 ^ 31)
    (offShort : (rtTickFromMillisecond offms).toNat + 2 * gap < 2 ^ 31)
    (others : Nat → List LedCall) (time : Nat → Nat) (spaced : Spaced time gap)
    (untouched : ∀ k, ∀ call ∈ others k,
      call.InRange pins.length ∧ ¬ call.Names idx.toNat ∧ ¬ call.Polls idx.toNat) :
    ∃ (started : CCtrlLED) (states : Nat → CCtrlLED),
      object.blinkOn idx onms offms rtTickGet = some started ∧
      (∀ k, blinkRun started others time k = some (states k)) ∧
      BlinkPhases (fun k => (states k).gpio.level pins[idx.toNat])
        (fun k => .ofBit ((states k).mDoSet.getLsbD idx.toNat))
        (rtTickFromMillisecond onms) (rtTickFromMillisecond offms) rtTickGet gap time := by
  obtain ⟨started, ran, startedWired, startedLamps⟩ :=
    wired.acts_blinkOn idx onms offms rtTickGet
  have polls := startedWired.blinkRun_lamp ⟨idx.toNat, inside⟩ untouched time
  choose states ranPolls _ lamps using polls
  have start : BlinkStart (started.lamp pins ⟨idx.toNat, inside⟩) (rtTickFromMillisecond onms)
      (rtTickFromMillisecond offms) rtTickGet gap := by
    refine ⟨?_, onPositive, offPositive, onShort, offShort⟩
    rw [startedLamps]
    simp only [LedCall.act, if_true]
  have phases := start.phases spaced
  simp only [← lamps] at phases
  exact ⟨started, states, ran, ranPolls, phases⟩

/-- The second LED blinks half a second lit and 300 ms dark, polled every 100
ticks from shortly before a wrap, while the first is switched on. -/
theorem twoLeds_blinkOn_phases :
    ∃ (started : CCtrlLED) (states : Nat → CCtrlLED),
      twoLeds.blinkOn 1 500 300 4294967200 = some started ∧
      (∀ k, blinkRun started (fun _ => [.on 0]) (fun k => 4294967250 + 100 * k) k =
        some (states k)) ∧
      (states 1).gpio.level 41 ≠ (states 0).gpio.level 41 := by
  obtain ⟨started, states, ran, polls, phases⟩ := blinkOn_phases twoLeds [40, 41] twoLeds_wired 1
    (by decide) 500 300 4294967200 100 (by decide) (by decide) (by decide) (by decide)
    (fun _ => [.on 0]) (fun k => 4294967250 + 100 * k) (fun k => by dsimp only; omega)
    (by simp [LedCall.InRange, LedCall.Names, LedCall.Polls])
  refine ⟨started, states, ran, polls, (phases.first 0 (by simp) ?_).2⟩
  unfold WrapsAt
  decide

end RttIctl.Bsp
