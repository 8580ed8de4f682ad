import RttIctl.Bsp.DoCache

/-!
Owns reading an output back after it was set, for any number of outputs: the
exact outputs and levels for which `getDO` and `outputDO` follow `setDO` and
`setRtDO`. The cached word has 16
bits, so an output from 16 on cannot be set high.

It does not own sequences of commands.
-/

namespace RttIctl.Bsp

open Lib

/-- Output `idx` reads back as the level it was set to and is driven there by the
next poll; the other outputs read as before. -/
structure ReadsBack (object after : CCtrlGpioDO) (pins : List UInt16) (idx state : UInt8) :
    Prop where
  own : after.getDO idx = .ofState state
  others : ∀ j < object.mNum, j ≠ idx → after.getDO j = object.getDO j
  driven : ∀ poll, poll = idx ∨ poll = 0xFF → ∃ output pin, after.outputDO poll = some output ∧
    pins[idx.toNat]? = some pin ∧ output.gpio.level pin = .ofState state

variable {object : CCtrlGpioDO} {pins : List UInt16}

/-! ### The output loop -/

theorem Populated.lt_length (populated : Populated object pins) {idx : UInt8}
    (inside : idx < object.mNum) : idx.toNat < pins.length := by
  rw [populated.count]
  exact UInt8.lt_iff_toNat_lt.mp inside

/-- A poll of an output, or of all of them, drives its pin to its cached bit. -/
theorem Populated.outputDO_level (populated : Populated object pins) {idx poll : UInt8}
    (inside : idx < object.mNum) (covers : poll = idx ∨ poll = 0xFF) :
    ∃ output, object.outputDO poll = some output ∧ ∃ pin, pins[idx.toNat]? = some pin ∧
      output.gpio.level pin = object.getDO idx := by
  have range := populated.lt_length inside
  have loop : ∃ left first, object.outputDO poll = object.outputPins left first ∧
      first.toNat + left ≤ pins.length ∧
      first.toNat ≤ idx.toNat ∧ idx.toNat < first.toNat + left := by
    by_cases all : poll = 0xFF
    · refine ⟨object.mNum.toNat, 0, by rw [all]; exact object.outputDO_all, ?_, ?_, ?_⟩
      · rw [populated.count]
        exact Nat.le_of_eq (Nat.zero_add _)
      · exact Nat.zero_le _
      · rw [← populated.count]
        exact Nat.lt_of_lt_of_eq range (Nat.zero_add _).symm
    · obtain rfl : poll = idx := covers.resolve_right all
      refine ⟨1, poll, ?_, range, Nat.le_refl _, Nat.lt_succ_self _⟩
      rw [object.outputDO_of_single all, if_neg (UInt8.not_le.mpr inside)]
  obtain ⟨left, first, same, bound, covered⟩ := loop
  obtain ⟨gpio, ran, levels⟩ := populated.outputPins_level bound
  refine ⟨{ object with gpio := gpio }, same.trans ran, pins[idx.toNat],
    List.getElem?_eq_getElem range, ?_⟩
  rw [levels idx.toNat range, if_pos covered, object.getDO_eq_ofBit]

/-! ### Setting one output -/

/-- The cached word holds the command of an output below 16, and LOW for every
other. -/
theorem ofBit_commandBit_self_iff (doSet : BitVec 16) (idx : UInt8) (level : PinLevel) :
    PinLevel.ofBit ((commandBit doSet idx level).getLsbD idx.toNat) = level ↔
      idx.toNat < 16 ∨ level = .low := by
  by_cases narrow : idx.toNat < 16
  · rw [ofBit_commandBit doSet idx level narrow, if_pos rfl]
    exact iff_of_true rfl (Or.inl narrow)
  · rw [BitVec.getLsbD_of_ge _ _ (Nat.le_of_not_lt narrow), PinLevel.ofBit, eq_comm]
    exact (or_iff_right narrow).symm

/-- An object left with the command for one output in its cache. -/
theorem Populated.readsBack_iff {after : CCtrlGpioDO} {idx state : UInt8}
    (populated : Populated after pins) (inside : idx < after.mNum)
    (commanded : after.mDoSet = commandBit object.mDoSet idx (.ofState state)) :
    ReadsBack object after pins idx state ↔
      idx.toNat < 16 ∨ PinLevel.ofState state = .low := by
  have own : after.getDO idx = .ofState state ↔
      idx.toNat < 16 ∨ PinLevel.ofState state = .low := by
    rw [after.getDO_eq_ofBit, commanded]
    exact ofBit_commandBit_self_iff _ _ _
  refine ⟨fun reads => own.mp reads.own, fun kept => ⟨own.mpr kept, ?_, ?_⟩⟩
  · intro j _ other
    have index : j.toNat ≠ idx.toNat := fun same => other (UInt8.toNat_inj.mp same)
    rw [after.getDO_eq_ofBit, object.getDO_eq_ofBit, commanded,
      getLsbD_commandBit_of_ne _ _ index]
  · intro poll covers
    obtain ⟨output, ran, pin, found, level⟩ := populated.outputDO_level inside covers
    exact ⟨output, pin, ran, found, level.trans (own.mpr kept)⟩

/-- Set in the cache or at once, an output reads back and is driven exactly when
it is one of the first 16 or is set low. -/
theorem setDO_setRtDO_readsBack_iff (populated : Populated object pins) {idx : UInt8}
    (inside : idx < object.mNum) (state : UInt8) :
    (ReadsBack object (object.setDO idx state) pins idx state ↔
      idx.toNat < 16 ∨ PinLevel.ofState state = .low) ∧
    ∃ after, object.setRtDO idx state = some after ∧
      (ReadsBack object after pins idx state ↔
        idx.toNat < 16 ∨ PinLevel.ofState state = .low) := by
  have range := populated.lt_length inside
  have single : idx ≠ 0xFF := by
    rintro rfl
    have := populated.length_le
    rw [show (0xFF : UInt8).toNat = 255 by rfl] at range
    omega
  constructor
  · rw [object.setDO_of_lt single inside]
    exact Populated.readsBack_iff ⟨populated.live, populated.count, populated.distinct⟩ inside rfl
  · have found : object.mPPins.get? idx.toNat = some pins[idx.toNat] := by
      rw [populated.live, Block.get?_live range]
    refine ⟨_, CCtrlGpioDO.setRtDO_of_found inside found state, ?_⟩
    exact Populated.readsBack_iff ⟨populated.live, populated.count, populated.distinct⟩ inside rfl

/-- Seventeen outputs, all low. -/
def seventeenOutputs : CCtrlGpioDO where
  mDoSet := 0
  mPPins := .live ((List.range 17).map UInt16.ofNat)
  mNum := 17
  gpio := { mode := fun _ => .output, level := fun _ => .low }

theorem seventeenOutputs_populated :
    Populated seventeenOutputs ((List.range 17).map UInt16.ofNat) :=
  ⟨rfl, by decide, by decide⟩

/-- The last of seventeen outputs set high in the cache. -/
theorem seventeenth_not_readsBack :
    Populated seventeenOutputs ((List.range 17).map UInt16.ofNat) ∧
      16 < seventeenOutputs.mNum ∧
      ¬ ReadsBack seventeenOutputs (seventeenOutputs.setDO 16 1)
        ((List.range 17).map UInt16.ofNat) 16 1 :=
  ⟨seventeenOutputs_populated, by decide, fun reads => absurd reads.own (by decide)⟩

/-- The sixteenth reads back, the seventeenth does not. -/
theorem seventeenOutputs_readsBack_iff :
    ReadsBack seventeenOutputs (seventeenOutputs.setDO 15 1)
        ((List.range 17).map UInt16.ofNat) 15 1 ∧
      ¬ ReadsBack seventeenOutputs (seventeenOutputs.setDO 16 1)
        ((List.range 17).map UInt16.ofNat) 16 1 := by
  have fifteenth := setDO_setRtDO_readsBack_iff seventeenOutputs_populated
    (show 15 < seventeenOutputs.mNum by decide) 1
  have sixteenth := setDO_setRtDO_readsBack_iff seventeenOutputs_populated
    (show 16 < seventeenOutputs.mNum by decide) 1
  exact ⟨fifteenth.1.mpr (by decide), mt sixteenth.1.mp (by decide)⟩

end RttIctl.Bsp
