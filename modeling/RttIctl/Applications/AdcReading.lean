import RttIctl.Applications.TaskI2c1

/-!
Owns the path of a reading from the data bytes of a converter to the integer its
voltage formula starts from, for the ADS111x through `ads111x_readAD` and for the
CS5532 through `cs5532_readAdc`, and the outcomes for which that integer is the
signed value of the converter's word.

It does not own the formulas, which go on in floating point.
-/

namespace RttIctl.Applications

open Bsp

/-! ### ADS111x -/

/-- What `4.096f*result/0x7FFF` starts from; `result` is an `rt_uint16_t`. -/
def SampThread.consumed (thread : SampThread) : Int :=
  thread.result.toNat

/-- Both transfers of `ads111x_readAD` succeed. -/
def AdsTransferred (bus : I2cBus) (dev : Ad111xDevice) : Prop :=
  (bus dev.addrInput .wr [ads111xDataReg]).ret = 1 ∧ (bus dev.addrInput .rd [0, 0]).ret = 2

/-- The word the converter sent, high byte first. -/
def adsSent (bus : I2cBus) (dev : Ad111xDevice) : BitVec 16 :=
  (bus dev.addrInput .rd [0, 0]).buf 0 ++ (bus dev.addrInput .rd [0, 0]).buf 1

/-- What the formula consumes was measured: the transfers succeeded, and it is
the signed value of the word. -/
def AdsFaithful (bus : I2cBus) (dev : Ad111xDevice) (consumed : Int) : Prop :=
  AdsTransferred bus dev ∧ consumed = (adsSent bus dev).toInt

/-- On a 16-bit number `two_complement` changes nothing. -/
theorem twoComplement16_eq (n : BitVec 16) : twoComplement16 n = n := by
  unfold twoComplement16
  dsimp only
  split
  · apply BitVec.eq_of_getLsbD_eq
    intro i inside
    have mask : (~~~((1#32 <<< 16) - 1#32)).getLsbD i = false := by
      revert inside
      revert i
      decide
    have wide : i < 32 := by omega
    rw [BitVec.getLsbD_setWidth, BitVec.getLsbD_or, mask, BitVec.getLsbD_signExtend]
    simp [inside, wide]
  · rfl

theorem adsWord_eq_append (high low : BitVec 8) : adsWord high low = high ++ low := by
  apply BitVec.eq_of_getLsbD_eq
  intro i inside
  rw [adsWord, BitVec.getLsbD_setWidth, BitVec.getLsbD_or, BitVec.getLsbD_shiftLeft,
    BitVec.getLsbD_setWidth, BitVec.getLsbD_setWidth, BitVec.getLsbD_append]
  grind

/-- A sample taken with a device present. -/
theorem ads111xReadAD_eq (bus : I2cBus) (dev : Ad111xDevice) :
    (AdsTransferred bus dev ∧ ads111xReadAD bus (some dev) = some (adsSent bus dev)) ∨
      ¬ AdsTransferred bus dev ∧ ads111xReadAD bus (some dev) = some 0 := by
  unfold ads111xReadAD AdsTransferred
  rw [Option.bind_eq_bind, Option.bind_some]
  dsimp only
  split
  · next refused => exact Or.inr ⟨fun both => refused both.1.symm, rfl⟩
  · next selected =>
      split
      · next refused => exact Or.inr ⟨fun both => refused both.2.symm, rfl⟩
      · next fetched =>
          refine Or.inl ⟨⟨(Decidable.not_not.mp selected).symm,
            (Decidable.not_not.mp fetched).symm⟩, ?_⟩
          rw [twoComplement16_eq, adsWord_eq_append]
          rfl

theorem toNat_eq_toInt_iff (word : BitVec 16) :
    (word.toNat : Int) = word.toInt ↔ word.msb = false := by
  rw [BitVec.toInt_eq_msb_cond]
  cases word.msb with
  | false => simp
  | true =>
      have lower : (word.toNat : Int) ≠ word.toNat - (2 ^ 16 : Nat) := by omega
      simpa using lower

/-- A sample is faithful exactly when its transfers succeed and the word is not
negative. -/
theorem sample_faithful_iff {thread : SampThread} (configured : thread.rtn = .eok) (bus : I2cBus)
    (dev : Ad111xDevice) :
    ∃ next, thread.sample bus (some dev) = some next ∧
      (AdsFaithful bus dev next.consumed ↔
        AdsTransferred bus dev ∧ (adsSent bus dev).msb = false) := by
  rcases ads111xReadAD_eq bus dev with ⟨transferred, read⟩ | ⟨failed, read⟩
  · refine ⟨{ thread with
      cnt := thread.cnt + 1
      result := adsSent bus dev
      history := .readAD thread.i (some dev) (adsSent bus dev) :: thread.history }, ?_, ?_⟩
    · rw [SampThread.sample, if_pos configured.symm, read]
      rfl
    · exact and_congr_right fun _ => toNat_eq_toInt_iff (adsSent bus dev)
  · refine ⟨{ thread with
      cnt := thread.cnt + 1
      result := 0
      history := .readAD thread.i (some dev) 0 :: thread.history }, ?_, ?_⟩
    · rw [SampThread.sample, if_pos configured.symm, read]
      rfl
    · exact iff_of_false (fun faithful => failed faithful.1) (fun both => failed both.1)

/-! ### CS5532 -/

/-- What `rt_spi_transfer` leaves: the number it returns and the receive buffer. -/
structure SpiOutcome where
  ret : UInt32
  rxBuf : Nat → BitVec 8

/-- `two_complement` of a 24-bit number. -/
def twoComplement24 (n : BitVec 32) : BitVec 32 :=
  if n &&& (1#32 <<< 23) ≠ 0 then n ||| ~~~((1#32 <<< 24) - 1#32) else n

/-- The number `rt_spi_transfer` returns is not looked at. -/
def cs5532ReadAdc (outcome : SpiOutcome) : BitVec 32 :=
  let data := ((outcome.rxBuf 1).setWidth 32 <<< 16) + ((outcome.rxBuf 2).setWidth 32 <<< 8) +
    (outcome.rxBuf 3).setWidth 32
  twoComplement24 data

/-- What `(float)date*5/3/0x7FFFFF` starts from; `date` is an `int32_t`. -/
def cs5532Consumed (outcome : SpiOutcome) : Int :=
  (cs5532ReadAdc outcome).toInt

/-- The word the converter sent in bytes 1 to 3, high byte first. -/
def cs5532Sent (outcome : SpiOutcome) : BitVec 24 :=
  outcome.rxBuf 1 ++ outcome.rxBuf 2 ++ outcome.rxBuf 3

def Cs5532Faithful (outcome : SpiOutcome) : Prop :=
  outcome.ret = 5 ∧ cs5532Consumed outcome = (cs5532Sent outcome).toInt

/-- Adding the shifted bytes puts them side by side. -/
theorem shifted_bytes_add (first second third : BitVec 8) :
    ((first.setWidth 32 <<< 16) + (second.setWidth 32 <<< 8) + third.setWidth 32 : BitVec 32) =
      (first ++ second ++ third : BitVec 24).setWidth 32 := by
  have upper : (first.setWidth 32 <<< 16 : BitVec 32) &&& (second.setWidth 32 <<< 8) = 0#32 := by
    apply BitVec.eq_of_getLsbD_eq
    intro i inside
    simp only [BitVec.getLsbD_and, BitVec.getLsbD_shiftLeft, BitVec.getLsbD_setWidth,
      BitVec.getLsbD_zero]
    grind
  have lower : ((first.setWidth 32 <<< 16 : BitVec 32) ||| (second.setWidth 32 <<< 8)) &&&
      third.setWidth 32 = 0#32 := by
    apply BitVec.eq_of_getLsbD_eq
    intro i inside
    simp only [BitVec.getLsbD_and, BitVec.getLsbD_or, BitVec.getLsbD_shiftLeft,
      BitVec.getLsbD_setWidth, BitVec.getLsbD_zero]
    grind
  rw [BitVec.add_eq_or_of_and_eq_zero _ _ upper, BitVec.add_eq_or_of_and_eq_zero _ _ lower]
  apply BitVec.eq_of_getLsbD_eq
  intro i inside
  simp only [BitVec.getLsbD_or, BitVec.getLsbD_shiftLeft, BitVec.getLsbD_setWidth,
    BitVec.getLsbD_append]
  grind

/-- On a 24-bit number `two_complement` is the sign extension. -/
theorem twoComplement24_eq (word : BitVec 24) :
    twoComplement24 (word.setWidth 32) = word.signExtend 32 := by
  have sign : (word.setWidth 32 : BitVec 32) &&& (1#32 <<< 23) ≠ 0 ↔ word.msb = true := by
    rw [← BitVec.twoPow_eq, BitVec.and_twoPow, BitVec.getLsbD_setWidth,
      BitVec.msb_eq_getLsbD_last]
    have bit : BitVec.twoPow 32 23 ≠ 0#32 := by decide
    cases word.getLsbD 23 <;> simp [bit]
  have upper (i : Nat) (inside : i < 32) :
      (~~~((1#32 <<< 24) - 1#32)).getLsbD i = decide (24 ≤ i) := by
    revert inside
    revert i
    decide
  unfold twoComplement24
  apply BitVec.eq_of_getLsbD_eq
  intro i inside
  rw [BitVec.getLsbD_signExtend]
  by_cases negative : word.msb = true
  · rw [if_pos (sign.mpr negative), BitVec.getLsbD_or, upper i inside, BitVec.getLsbD_setWidth]
    grind
  · rw [if_neg (mt sign.mp negative), BitVec.getLsbD_setWidth]
    grind

/-- Whatever the bytes, the number consumed is the signed value of the word. -/
theorem cs5532Consumed_eq (outcome : SpiOutcome) :
    cs5532Consumed outcome = (cs5532Sent outcome).toInt := by
  rw [cs5532Consumed, cs5532ReadAdc, shifted_bytes_add, twoComplement24_eq]
  exact BitVec.toInt_signExtend_of_le (by decide)

/-! ### Both converters -/

/-- What the formulas consume was measured exactly when, for the ADS111x, both
transfers succeed and the word is not negative, and for the CS5532 when the
transfer succeeds, of whatever sign the word is. -/
theorem readings_faithful_iff {thread : SampThread} (configured : thread.rtn = .eok)
    (bus : I2cBus) (dev : Ad111xDevice) (outcome : SpiOutcome) :
    (∃ next, thread.sample bus (some dev) = some next ∧
      (AdsFaithful bus dev next.consumed ↔
        AdsTransferred bus dev ∧ (adsSent bus dev).msb = false)) ∧
      (Cs5532Faithful outcome ↔ outcome.ret = 5) :=
  ⟨sample_faithful_iff configured bus dev, and_iff_left (cs5532Consumed_eq outcome)⟩

/-- Every transfer succeeds and the word is the two bytes. -/
def goodBus (high low : BitVec 8) : I2cBus :=
  fun _ _ bytes => ⟨UInt32.ofNat bytes.length, fun i => if i = 0 then high else low⟩

/-- Every transfer fails. -/
def deadBus : I2cBus :=
  fun _ _ _ => ⟨0, fun _ => 0⟩

/-- A reading of -1 is consumed as 65535. -/
theorem negative_sample_not_faithful :
    ∃ next, SampThread.begin.sample (goodBus 0xFF 0xFF) (some ⟨0x48⟩) = some next ∧
      next.consumed = 65535 ∧ (adsSent (goodBus 0xFF 0xFF) ⟨0x48⟩).toInt = -1 ∧
      ¬ AdsFaithful (goodBus 0xFF 0xFF) ⟨0x48⟩ next.consumed := by
  refine ⟨_, rfl, by decide, by decide, fun faithful => ?_⟩
  exact absurd faithful.2 (by decide)

/-- A positive reading on both converters, and both converters unreachable. -/
theorem begin_readings_faithful_iff :
    (∃ next, SampThread.begin.sample (goodBus 0x12 0x34) (some ⟨0x48⟩) = some next ∧
        AdsFaithful (goodBus 0x12 0x34) ⟨0x48⟩ next.consumed) ∧
      (∃ next, SampThread.begin.sample deadBus (some ⟨0x48⟩) = some next ∧
        ¬ AdsFaithful deadBus ⟨0x48⟩ next.consumed) ∧
      Cs5532Faithful ⟨5, fun _ => 0xFF⟩ ∧ ¬ Cs5532Faithful ⟨0, fun _ => 0⟩ := by
  obtain ⟨⟨measured, ran, faithful⟩, received⟩ := readings_faithful_iff
    (show SampThread.begin.rtn = .eok from rfl) (goodBus 0x12 0x34) ⟨0x48⟩ ⟨5, fun _ => 0xFF⟩
  obtain ⟨⟨lost, ran', unfaithful⟩, dropped⟩ := readings_faithful_iff
    (show SampThread.begin.rtn = .eok from rfl) deadBus ⟨0x48⟩ ⟨0, fun _ => 0⟩
  refine ⟨⟨measured, ran, faithful.mpr ⟨⟨rfl, rfl⟩, by decide⟩⟩, ⟨lost, ran', fun trusted => ?_⟩,
    received.mpr rfl, fun trusted => ?_⟩
  · exact absurd (unfaithful.mp trusted).1.1 (by decide)
  · exact absurd (dropped.mp trusted) (by decide)

end RttIctl.Applications
