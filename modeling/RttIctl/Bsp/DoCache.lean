import Mathlib.Data.List.Nodup
import RttIctl.Lib.WriteBack
import RttIctl.Bsp.Dio

/-!
Owns sequences of output commands: the refinement of the four commands of
`CCtrlGpioDO` to accesses of a write-back bank, what a command naming one
output leaves alone, and the agreement of the cache and the pins over every
sequence.

It does not own the operations themselves or the initialisation of the object.
-/

namespace RttIctl.Bsp

open Lib

/-! ### Commands and their sequences -/

/-- The commands that change the outputs. -/
inductive DoCall
  | setDO (idx state : UInt8)
  | setRtDO (idx state : UInt8)
  | toggleDO (idx : UInt8)
  | outputDO (idx : UInt8)
  deriving DecidableEq, Repr

namespace DoCall

def run (self : CCtrlGpioDO) : DoCall → Option CCtrlGpioDO
  | .setDO idx state => some (self.setDO idx state)
  | .setRtDO idx state => self.setRtDO idx state
  | .toggleDO idx => self.toggleDO idx
  | .outputDO idx => self.outputDO idx

/-- Run a sequence of commands. -/
def runAll (self : CCtrlGpioDO) (calls : List DoCall) : Option CCtrlGpioDO :=
  calls.foldlM run self

def idx : DoCall → UInt8
  | .setDO idx _ => idx
  | .setRtDO idx _ => idx
  | .toggleDO idx => idx
  | .outputDO idx => idx

/-- The two commands that take 0xFF for every output of the sequence. -/
def Broadcast : DoCall → Prop
  | .setDO idx _ => idx = 0xFF
  | .setRtDO _ _ => False
  | .toggleDO _ => False
  | .outputDO idx => idx = 0xFF

/-- A cached command touching output `i`. -/
def Touches (i : Nat) : DoCall → Prop
  | .setDO idx _ => idx = 0xFF ∨ idx.toNat = i
  | _ => False

/-- An immediate command on output `i`, or a poll covering it. -/
def Settles (i : Nat) : DoCall → Prop
  | .setDO _ _ => False
  | .setRtDO idx _ => idx.toNat = i
  | .toggleDO idx => idx.toNat = i
  | .outputDO idx => idx = 0xFF ∨ idx.toNat = i

end DoCall

/-! ### Refinement to a write-back bank -/

/-- An object whose pin array is in order: `m_num` distinct pins, no more than
the cache has bits. -/
structure Wired (object : CCtrlGpioDO) (pins : List UInt16) : Prop where
  live : object.mPPins = .live pins
  count : pins.length = object.mNum.toNat
  narrow : pins.length ≤ 16
  distinct : pins.Nodup

/-- An object whose pin array has one distinct pin for each of its `m_num`
outputs. -/
structure Populated (object : CCtrlGpioDO) (pins : List UInt16) : Prop where
  live : object.mPPins = .live pins
  count : pins.length = object.mNum.toNat
  distinct : pins.Nodup

/-- The bank an object stands for: cached bits and pin levels by output. -/
def CCtrlGpioDO.view (self : CCtrlGpioDO) (pins : List UInt16) :
    Bank (Fin pins.length) PinLevel where
  cached i := .ofBit (self.mDoSet.getLsbD i)
  driven i := self.gpio.level pins[i]

/-- The access to the bank that a command stands for. -/
def DoCall.access (count : Nat) : DoCall → Access (Fin count) PinLevel
  | .setDO idx state =>
      .stage (fun i => decide (idx = 0xFF ∨ idx.toNat = i)) (.ofState state)
  | .setRtDO idx state => .through (fun i => decide (idx.toNat = i)) fun _ => .ofState state
  | .toggleDO idx => .through (fun i => decide (idx.toNat = i)) PinLevel.toggled
  | .outputDO idx => .flush fun i => decide (idx = 0xFF ∨ idx.toNat = i)

/-- The object after a command: still in order, and the bank after the access. -/
def Carried (object : CCtrlGpioDO) (pins : List UInt16)
    (access : Access (Fin pins.length) PinLevel) (result : Option CCtrlGpioDO) : Prop :=
  ∃ after, result = some after ∧ Wired after pins ∧
    after.view pins = (object.view pins).apply access

variable {object : CCtrlGpioDO} {pins : List UInt16}

/-- A command that names an index at or past `m_num` is no access at all. -/
theorem Wired.carried_of_le (wired : Wired object pins) {idx : UInt8}
    (outside : object.mNum ≤ idx) {access : Access (Fin pins.length) PinLevel}
    (single : ∀ i : Fin pins.length, access.cover i = true → idx.toNat = i) :
    Carried object pins access (some object) := by
  have none_covered : ∀ i, access.cover i = false := by
    intro i
    apply Bool.eq_false_iff.mpr
    intro covered
    have named := single i covered
    have bound : object.mNum.toNat ≤ idx.toNat := UInt8.le_iff_toNat_le.mp outside
    have := wired.count
    have := i.isLt
    omega
  refine ⟨object, rfl, wired, ?_⟩
  ext i
  · exact (Bank.apply_of_not_cover (none_covered i)).1.symm
  · exact (Bank.apply_of_not_cover (none_covered i)).2.symm

theorem Wired.found (wired : Wired object pins) {idx : UInt8} (inside : idx.toNat < pins.length) :
    object.mPPins.get? idx.toNat = some pins[idx.toNat] := by
  rw [wired.live, Block.get?_live inside]

theorem Wired.same_pin_iff (wired : Wired object pins) (i : Fin pins.length) {idx : UInt8}
    (inside : idx.toNat < pins.length) : pins[i] = pins[idx.toNat] ↔ idx.toNat = i := by
  rw [eq_comm (a := idx.toNat)]
  exact wired.distinct.getElem_inj_iff

/-- Driving one output goes through to its pin and leaves the others. -/
theorem Wired.carried_drive (wired : Wired object pins) {idx : UInt8}
    (inside : idx.toNat < pins.length) (change : PinLevel → PinLevel) :
    Carried object pins (.through (fun i => decide (idx.toNat = i)) change)
      (object.drive idx (change (object.gpio.level pins[idx.toNat]))) := by
  refine ⟨_, CCtrlGpioDO.drive_of_found (wired.found inside) _,
    ⟨wired.live, wired.count, wired.narrow, wired.distinct⟩, ?_⟩
  ext i
  · have low : (i : Nat) < 16 := Nat.lt_of_lt_of_le i.isLt wired.narrow
    simp only [CCtrlGpioDO.view, Bank.apply, ofBit_commandBit _ _ _ low, decide_eq_true_eq]
    by_cases named : idx.toNat = i
    · simp only [named, if_true, Fin.getElem_fin]
    · simp only [named, if_false]
  · simp only [CCtrlGpioDO.view, Bank.apply, Gpio.rtPinWrite, wired.same_pin_iff i inside,
      decide_eq_true_eq]
    by_cases named : idx.toNat = i
    · simp only [named, if_true, Fin.getElem_fin]
    · simp only [named, if_false]

theorem Wired.lt_of_not_le (wired : Wired object pins) {idx : UInt8}
    (inside : ¬ object.mNum ≤ idx) : idx.toNat < pins.length := by
  rw [UInt8.le_iff_toNat_le] at inside
  have := wired.count
  omega

/-- A new cached word reaches the cache alone. -/
theorem Wired.carried_word (wired : Wired object pins) {word : BitVec 16}
    {cover : Fin pins.length → Bool} {level : PinLevel}
    (bits : ∀ i : Fin pins.length, PinLevel.ofBit (word.getLsbD i) =
      if cover i then level else .ofBit (object.mDoSet.getLsbD i)) :
    Carried object pins (.stage cover level) (some { object with mDoSet := word }) := by
  refine ⟨_, rfl, ⟨wired.live, wired.count, wired.narrow, wired.distinct⟩, ?_⟩
  ext i
  · exact bits i
  · rfl

theorem Wired.carried_setDO (wired : Wired object pins) (idx state : UInt8) :
    Carried object pins ((DoCall.setDO idx state).access pins.length)
      (some (object.setDO idx state)) := by
  have low : ∀ i : Fin pins.length, (i : Nat) < 16 := by
    intro i
    exact Nat.lt_of_lt_of_le i.isLt wired.narrow
  by_cases all : idx = 0xFF
  · rw [all, object.setDO_all]
    apply wired.carried_word
    intro i
    rw [ofBit_wordOf _ (low i)]
    simp
  by_cases inside : idx < object.mNum
  · rw [object.setDO_of_lt all inside]
    apply wired.carried_word
    intro i
    simp only [ofBit_commandBit _ _ _ (low i), all, false_or, decide_eq_true_eq]
  · rw [object.setDO_of_not_lt all inside]
    apply wired.carried_of_le (UInt8.not_lt.mp inside)
    intro i covered
    exact (of_decide_eq_true covered).resolve_left all

theorem Wired.carried_setRtDO (wired : Wired object pins) (idx state : UInt8) :
    Carried object pins ((DoCall.setRtDO idx state).access pins.length)
      (object.setRtDO idx state) := by
  rw [CCtrlGpioDO.setRtDO_eq]
  split
  · next outside =>
      apply wired.carried_of_le outside
      intro i covered
      exact of_decide_eq_true covered
  · next inside =>
      exact wired.carried_drive (wired.lt_of_not_le inside) fun _ => PinLevel.ofState state

/-- `toggleDO` goes by the level of the pin, not by the cached bit. -/
theorem Wired.carried_toggleDO (wired : Wired object pins) (idx : UInt8) :
    Carried object pins ((DoCall.toggleDO idx).access pins.length) (object.toggleDO idx) := by
  unfold CCtrlGpioDO.toggleDO
  split
  · next outside =>
      apply wired.carried_of_le outside
      intro i covered
      exact of_decide_eq_true covered
  · next inside =>
      have range := wired.lt_of_not_le inside
      have reversed : (if PinLevel.high = object.gpio.level pins[idx.toNat] then
          object.drive idx .low else object.drive idx .high) =
          object.drive idx (object.gpio.level pins[idx.toNat]).toggled := by
        cases object.gpio.level pins[idx.toNat] <;> rfl
      rw [wired.found range, Option.bind_eq_bind, Option.bind_some, Gpio.rtPinRead, reversed]
      exact wired.carried_drive range PinLevel.toggled

theorem toNat_succ_of_lt {idx : UInt8} (inside : idx.toNat < 255) :
    (idx + 1).toNat = idx.toNat + 1 := by
  rw [UInt8.toNat_add]
  exact Nat.mod_eq_of_lt (show idx.toNat + 1 < 256 by omega)

theorem toNat_succ_of_single {idx : UInt8} (single : idx ≠ 0xFF) :
    (idx + 1).toNat = idx.toNat + 1 := by
  have differ : idx.toNat ≠ (0xFF : UInt8).toNat := fun same => single (UInt8.toNat_inj.mp same)
  have small : idx.toNat < 256 := idx.toNat_lt
  rw [show (0xFF : UInt8).toNat = 255 by rfl] at differ
  exact toNat_succ_of_lt (by omega)

theorem Populated.length_le (populated : Populated object pins) : pins.length ≤ 255 := by
  have small := object.mNum.toNat_lt
  rw [populated.count]
  omega

/-- The loop brings the pins it runs over to their cached bits and leaves the
others. -/
theorem Populated.outputPins_level (populated : Populated object pins) {left : Nat}
    {first : UInt8} (inside : first.toNat + left ≤ pins.length) :
    ∃ gpio, object.outputPins left first = some { object with gpio := gpio } ∧
      ∀ i (range : i < pins.length), gpio.level pins[i] =
        if first.toNat ≤ i ∧ i < first.toNat + left then .ofBit (object.mDoSet.getLsbD i)
        else object.gpio.level pins[i] := by
  induction left generalizing object first with
  | zero =>
      refine ⟨object.gpio, rfl, fun i _ => ?_⟩
      have empty : ¬ (first.toNat ≤ i ∧ i < first.toNat + 0) := by omega
      rw [if_neg empty]
  | succ left inductionHypothesis =>
      have range : first.toNat < pins.length := by omega
      have few := populated.length_le
      have next : (first + 1).toNat = first.toNat + 1 := toNat_succ_of_lt (by omega)
      have written : Populated
          { object with gpio := object.gpio.rtPinWrite pins[first.toNat] (object.getDO first) }
          pins := ⟨populated.live, populated.count, populated.distinct⟩
      have rest : (first + 1).toNat + left ≤ pins.length := by omega
      obtain ⟨gpio, ran, levels⟩ := inductionHypothesis written rest
      refine ⟨gpio, ?_, fun i inRange => ?_⟩
      · rw [CCtrlGpioDO.outputPins, populated.live, Block.get?_live range, Option.bind_eq_bind,
          Option.bind_some]
        rw [← populated.live]
        exact ran
      · rw [levels i inRange, next]
        by_cases own : i = first.toNat
        · subst own
          have past : ¬ (first.toNat + 1 ≤ first.toNat ∧
              first.toNat < first.toNat + 1 + left) := by omega
          have present : first.toNat ≤ first.toNat ∧ first.toNat < first.toNat + (left + 1) := by
            omega
          rw [if_neg past, if_pos present, ← object.getDO_eq_ofBit]
          exact if_pos rfl
        · have other : pins[i] ≠ pins[first.toNat] :=
            fun same => own (populated.distinct.getElem_inj_iff.mp same)
          have unwritten : (object.gpio.rtPinWrite pins[first.toNat]
              (object.getDO first)).level pins[i] = object.gpio.level pins[i] := if_neg other
          have window : (first.toNat + 1 ≤ i ∧ i < first.toNat + 1 + left) ↔
              (first.toNat ≤ i ∧ i < first.toNat + (left + 1)) := by omega
          rw [unwritten]
          exact if_congr window rfl rfl

theorem Wired.populated (wired : Wired object pins) : Populated object pins :=
  ⟨wired.live, wired.count, wired.distinct⟩

/-- The loop flushes the bank. -/
theorem Wired.carried_outputPins (wired : Wired object pins) {left : Nat} {first : UInt8}
    (inside : first.toNat + left ≤ pins.length) :
    Carried object pins
      (.flush fun i => decide (first.toNat ≤ i ∧ (i : Nat) < first.toNat + left))
      (object.outputPins left first) := by
  obtain ⟨gpio, ran, levels⟩ := wired.populated.outputPins_level inside
  refine ⟨_, ran, ⟨wired.live, wired.count, wired.narrow, wired.distinct⟩, ?_⟩
  ext i
  · rfl
  · simp only [CCtrlGpioDO.view, Bank.apply, decide_eq_true_eq]
    exact levels i i.isLt

theorem CCtrlGpioDO.outputDO_all (self : CCtrlGpioDO) :
    self.outputDO 0xFF = self.outputPins self.mNum.toNat 0 := by
  simp [outputDO]

theorem CCtrlGpioDO.outputDO_of_single (self : CCtrlGpioDO) {idx : UInt8}
    (single : idx ≠ 0xFF) :
    self.outputDO idx = if self.mNum ≤ idx then some self else self.outputPins 1 idx := by
  have same : self.mNum < idx + 1 ↔ self.mNum ≤ idx := by
    rw [UInt8.lt_iff_toNat_lt, UInt8.le_iff_toNat_le, toNat_succ_of_single single]
    exact Nat.lt_succ_iff
  have passes : (idx + 1).toNat - idx.toNat = 1 := by
    rw [toNat_succ_of_single single]
    omega
  simp only [outputDO, Ne.symm single, if_false, passes]
  exact if_congr same rfl rfl

theorem Wired.carried_outputDO (wired : Wired object pins) (idx : UInt8) :
    Carried object pins ((DoCall.outputDO idx).access pins.length) (object.outputDO idx) := by
  by_cases all : idx = 0xFF
  · have loop : object.outputDO idx = object.outputPins object.mNum.toNat 0 := by
      rw [all]
      exact object.outputDO_all
    have range : (0 : UInt8).toNat + object.mNum.toNat ≤ pins.length := by
      rw [wired.count]
      exact Nat.le_of_eq (Nat.zero_add _)
    have covers : (fun i : Fin pins.length =>
        decide ((0 : UInt8).toNat ≤ i ∧ (i : Nat) < (0 : UInt8).toNat + object.mNum.toNat)) =
        fun i : Fin pins.length => decide (idx = 0xFF ∨ idx.toNat = i) := by
      funext i
      simp [all, ← wired.count]
    rw [DoCall.access, ← covers, loop]
    exact wired.carried_outputPins range
  · rw [object.outputDO_of_single all]
    split
    · next outside =>
        apply wired.carried_of_le outside
        intro i covered
        exact (of_decide_eq_true covered).resolve_left all
    · next inside =>
        have range : idx.toNat + 1 ≤ pins.length := wired.lt_of_not_le inside
        have covers : (fun i : Fin pins.length =>
            decide (idx.toNat ≤ i ∧ (i : Nat) < idx.toNat + 1)) =
            fun i : Fin pins.length => decide (idx = 0xFF ∨ idx.toNat = i) := by
          funext i
          have single : idx.toNat ≤ i ∧ (i : Nat) < idx.toNat + 1 ↔ idx.toNat = i := by omega
          apply decide_eq_decide.mpr
          rw [single, or_iff_right all]
        rw [DoCall.access, ← covers]
        exact wired.carried_outputPins range

/-- Every command refines its access to the bank. -/
theorem Wired.carried_run (wired : Wired object pins) (call : DoCall) :
    Carried object pins (call.access pins.length) (call.run object) := by
  cases call with
  | setDO idx state => exact wired.carried_setDO idx state
  | setRtDO idx state => exact wired.carried_setRtDO idx state
  | toggleDO idx => exact wired.carried_toggleDO idx
  | outputDO idx => exact wired.carried_outputDO idx

/-- Every sequence of commands runs, and refines the run of its accesses. -/
theorem Wired.runAll (wired : Wired object pins) (calls : List DoCall) :
    ∃ after, DoCall.runAll object calls = some after ∧ Wired after pins ∧
      after.view pins = (object.view pins).run (calls.map (DoCall.access pins.length)) := by
  induction calls generalizing object with
  | nil => exact ⟨object, rfl, wired, rfl⟩
  | cons call rest inductionHypothesis =>
      obtain ⟨middle, ran, middleWired, middleView⟩ := wired.carried_run call
      obtain ⟨after, finished, afterWired, afterView⟩ := inductionHypothesis middleWired
      refine ⟨after, ?_, afterWired, ?_⟩
      · rw [DoCall.runAll, List.foldlM_cons, ran]
        exact finished
      · rw [afterView, middleView]
        rfl

/-! ### Agreement of the cache and the pins -/

/-- A cached command for output `i` is outstanding after `calls`. -/
def CachedPending (i : Nat) (calls : List DoCall) : Prop :=
  Pending (DoCall.Touches i) (DoCall.Settles i) calls

/-- The level of the pin of output `i` is its cached bit. -/
def Agrees (object : CCtrlGpioDO) (pins : List UInt16) (i : Fin pins.length) : Prop :=
  object.gpio.level pins[i] = PinLevel.ofBit (object.mDoSet.getLsbD i)

theorem pending_access_iff (i : Fin pins.length) (calls : List DoCall) :
    Pending (Access.defers i) (Access.settles i) (calls.map (DoCall.access pins.length)) ↔
      CachedPending i calls := by
  apply pending_map_iff
  · intro call
    cases call <;> simp [DoCall.access, Access.defers, DoCall.Touches]
  · intro call
    cases call <;> simp [DoCall.access, Access.settles, DoCall.Settles]

/-- What a command leaves alone when it names the output `idx` only: every
other cached bit and every pin but its own. -/
def LeavesOthers (object after : CCtrlGpioDO) (idx : UInt8) : Prop :=
  (∀ j, j ≠ idx.toNat → after.mDoSet.getLsbD j = object.mDoSet.getLsbD j) ∧
    ∀ pin, object.mPPins.get? idx.toNat ≠ some pin →
      after.gpio.level pin = object.gpio.level pin

theorem CCtrlGpioDO.drive_leavesOthers {after : CCtrlGpioDO} {idx : UInt8} {level : PinLevel}
    (ran : object.drive idx level = some after) : LeavesOthers object after idx := by
  cases found : object.mPPins.get? idx.toNat with
  | none => simp [CCtrlGpioDO.drive, found] at ran
  | some own =>
      rw [CCtrlGpioDO.drive_of_found found, Option.some.injEq] at ran
      subst ran
      refine ⟨fun j other => getLsbD_commandBit_of_ne _ level other, fun pin other => ?_⟩
      rw [found, ne_eq, Option.some.injEq] at other
      exact if_neg (Ne.symm other)

theorem leavesOthers_refl (object : CCtrlGpioDO) (idx : UInt8) :
    LeavesOthers object object idx :=
  ⟨fun _ _ => rfl, fun _ _ => rfl⟩

theorem CCtrlGpioDO.setDO_leavesOthers (object : CCtrlGpioDO) {idx : UInt8} (state : UInt8)
    (single : idx ≠ 0xFF) : LeavesOthers object (object.setDO idx state) idx := by
  by_cases inside : idx < object.mNum
  · rw [object.setDO_of_lt single inside]
    exact ⟨fun j other => getLsbD_commandBit_of_ne _ _ other, fun _ _ => rfl⟩
  · rw [object.setDO_of_not_lt single inside]
    exact leavesOthers_refl object idx

theorem CCtrlGpioDO.outputDO_leavesOthers {after : CCtrlGpioDO} {idx : UInt8}
    (single : idx ≠ 0xFF) (ran : object.outputDO idx = some after) :
    LeavesOthers object after idx := by
  rw [object.outputDO_of_single single] at ran
  split at ran
  · rw [← Option.some.inj ran]
    exact leavesOthers_refl object idx
  · rw [CCtrlGpioDO.outputPins] at ran
    obtain ⟨own, found, written⟩ := Option.bind_eq_some_iff.mp ran
    rw [← Option.some.inj written]
    refine ⟨fun _ _ => rfl, fun pin other => ?_⟩
    rw [found, ne_eq, Option.some.injEq] at other
    exact if_neg (Ne.symm other)

/-- Run a command that names a single output: every other cached bit and every
other pin stay. -/
theorem DoCall.run_leavesOthers {after : CCtrlGpioDO} {call : DoCall}
    (single : ¬ call.Broadcast) (ran : call.run object = some after) :
    LeavesOthers object after call.idx := by
  cases call with
  | setDO idx state =>
      rw [← Option.some.inj ran]
      exact object.setDO_leavesOthers state single
  | setRtDO idx state =>
      rw [DoCall.run, CCtrlGpioDO.setRtDO_eq] at ran
      split at ran
      · rw [← Option.some.inj ran]
        exact leavesOthers_refl object idx
      · exact CCtrlGpioDO.drive_leavesOthers ran
  | toggleDO idx =>
      rw [DoCall.run, CCtrlGpioDO.toggleDO] at ran
      split at ran
      · rw [← Option.some.inj ran]
        exact leavesOthers_refl object idx
      · obtain ⟨pin, _, driven⟩ := Option.bind_eq_some_iff.mp ran
        split at driven
        · exact CCtrlGpioDO.drive_leavesOthers driven
        · exact CCtrlGpioDO.drive_leavesOthers driven
  | outputDO idx => exact CCtrlGpioDO.outputDO_leavesOthers single ran

/-- From an object whose pins and cache agree, every sequence of commands runs
to its end; each pin then shows its cached bit unless a cached command for it
is outstanding, a poll of all outputs brings every pin up to date, and a
command naming one output leaves the pin and the cached bit of every other. -/
theorem cache_and_pins_agree (wired : Wired object pins)
    (start : ∀ i : Fin pins.length, Agrees object pins i) (calls : List DoCall) :
    ∃ after, DoCall.runAll object calls = some after ∧
      (∀ i : Fin pins.length, ¬ CachedPending i calls → Agrees after pins i) ∧
      (∃ polled, after.outputDO 0xFF = some polled ∧
        ∀ i : Fin pins.length, Agrees polled pins i) ∧
      ∀ call : DoCall, ¬ call.Broadcast → ∃ next, call.run after = some next ∧
        ∀ j : Fin pins.length, (j : Nat) ≠ call.idx.toNat →
          next.gpio.level pins[j] = after.gpio.level pins[j] ∧
            next.mDoSet.getLsbD j = after.mDoSet.getLsbD j := by
  obtain ⟨after, ran, afterWired, afterView⟩ := wired.runAll calls
  refine ⟨after, ran, fun i settled => ?_, ?_, fun call single => ?_⟩
  · have before : (object.view pins).cached i = (object.view pins).driven i := (start i).symm
    have agrees := Bank.run_agrees before (calls.map (DoCall.access pins.length))
      (mt (pending_access_iff i calls).mp settled)
    rw [← afterView] at agrees
    exact agrees.symm
  · obtain ⟨polled, output, _, polledView⟩ := afterWired.carried_outputDO 0xFF
    refine ⟨polled, output, fun i => ?_⟩
    have covered : ((DoCall.outputDO 0xFF).access pins.length).settles i := by
      simp [DoCall.access, Access.settles]
    have agrees : (polled.view pins).cached i = (polled.view pins).driven i := by
      rw [polledView]
      exact Bank.apply_agrees (Or.inl covered) not_false
    exact agrees.symm
  · obtain ⟨next, stepped, _, _⟩ := afterWired.carried_run call
    refine ⟨next, stepped, fun j other => ?_⟩
    obtain ⟨bits, levels⟩ := DoCall.run_leavesOthers single stepped
    refine ⟨levels _ ?_, bits j other⟩
    rw [afterWired.live]
    intro found
    obtain ⟨inside, same⟩ := List.getElem?_eq_some_iff.mp found
    exact other (afterWired.distinct.getElem_inj_iff.mp same).symm

/-- Three outputs on pins 40, 41 and 42, all high. -/
def threeOutputs : CCtrlGpioDO where
  mDoSet := 0b111
  mPPins := .live [40, 41, 42]
  mNum := 3
  gpio := { mode := fun _ => .output, level := fun _ => .high }

theorem threeOutputs_wired : Wired threeOutputs [40, 41, 42] :=
  ⟨rfl, rfl, by decide, by decide⟩

theorem threeOutputs_agree : ∀ i : Fin [40, 41, 42].length, Agrees threeOutputs [40, 41, 42] i := by
  unfold Agrees
  decide

/-- A cached command, a toggle and a poll of one output in sequence. -/
theorem threeOutputs_cache_and_pins_agree :
    ∃ after, DoCall.runAll threeOutputs [.setDO 0 0, .toggleDO 1, .outputDO 2] = some after ∧
      Agrees after [40, 41, 42] ⟨1, by decide⟩ := by
  obtain ⟨after, ran, agree, _, _⟩ := cache_and_pins_agree threeOutputs_wired threeOutputs_agree
    [.setDO 0 0, .toggleDO 1, .outputDO 2]
  refine ⟨after, ran, agree ⟨1, by decide⟩ ?_⟩
  rintro ⟨before, entry, later, split, touched, _⟩
  have untouched : ∀ call ∈ [DoCall.setDO 0 0, .toggleDO 1, .outputDO 2], ¬ call.Touches 1 := by
    simp [DoCall.Touches]
  apply untouched entry _ touched
  rw [split]
  exact List.mem_append_right _ List.mem_cons_self

end RttIctl.Bsp
