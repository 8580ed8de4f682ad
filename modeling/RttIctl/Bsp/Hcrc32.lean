import RttIctl.Lib.ShiftRegister

/-!
Owns the two CRC computations of `bspHcrc32.cpp`: the software loop of
`stm_softCRC32`, the CRC unit driven by `HAL_CRC_Calculate` through
`stm_hardCRC32`, and their agreement on every buffer.

It does not own the self test that prints both values.
-/

namespace RttIctl.Bsp

open Lib

def dwPolynomial : BitVec 32 := 0x04c11db7#32

/-! ### stm_softCRC32 -/

/-- One pass of the inner loop: shift with feedback, then inject the data bit
selected by `xbit`. -/
def softCrcBit (data xbit crc32 : BitVec 32) : BitVec 32 :=
  let crc32 :=
    if crc32 &&& 0x80000000#32 ≠ 0#32 then (crc32 <<< 1) ^^^ dwPolynomial
    else crc32 <<< 1
  if data &&& xbit ≠ 0#32 then crc32 ^^^ dwPolynomial else crc32

/-- The remaining passes of the inner loop; `xbit` moves down after each. -/
def softCrcBits (data : BitVec 32) : Nat → BitVec 32 → BitVec 32 → BitVec 32
  | 0, _, crc32 => crc32
  | bits + 1, xbit, crc32 => softCrcBits data bits (xbit >>> 1) (softCrcBit data xbit crc32)

/-- The outer loop over the words that `ptr` still points to. -/
def softCrcWords : List (BitVec 32) → BitVec 32 → BitVec 32
  | [], crc32 => crc32
  | data :: rest, crc32 => softCrcWords rest (softCrcBits data 32 (1#32 <<< 31) crc32)

def stmSoftCRC32 (buffer : List (BitVec 32)) : BitVec 32 :=
  softCrcWords buffer 0xFFFFFFFF#32

/-! ### The CRC unit and stm_hardCRC32 -/

/-- `HAL_CRC_StateTypeDef`. -/
inductive HalCrcState
  | reset
  | ready
  | busy
  | timeout
  | error
  deriving DecidableEq, Repr

/-- `CRC_HandleTypeDef`: the driver's state and the data register of the unit. -/
structure CrcHandle where
  state : HalCrcState
  dr : BitVec 32
  deriving DecidableEq, Repr

/-- `__HAL_CRC_DR_RESET`: the unit restarts from all ones. -/
def CrcHandle.drReset (hcrc : CrcHandle) : CrcHandle :=
  { hcrc with dr := 0xFFFFFFFF#32 }

/-- The polynomial that is wired into the unit. -/
def crcUnitPolynomial : BitVec 32 := 0x04C11DB7#32

/-- The unit's 32 shifts, feeding its polynomial back whenever a one is shifted
out. -/
def crcUnitShifts : Nat → BitVec 32 → BitVec 32
  | 0, register => register
  | count + 1, register =>
      crcUnitShifts count
        (if register.getLsbD 31 then (register <<< 1) ^^^ crcUnitPolynomial else register <<< 1)

/-- A word written to the data register is added to it and then shifted
through. -/
def CrcHandle.writeDr (hcrc : CrcHandle) (word : BitVec 32) : CrcHandle :=
  { hcrc with dr := crcUnitShifts 32 (hcrc.dr ^^^ word) }

def halCrcCalculate (hcrc : CrcHandle) (pBuffer : List (BitVec 32)) : CrcHandle × BitVec 32 :=
  let hcrc := { hcrc with state := HalCrcState.busy }
  let hcrc := hcrc.drReset
  let hcrc := pBuffer.foldl CrcHandle.writeDr hcrc
  let temp := hcrc.dr
  ({ hcrc with state := HalCrcState.ready }, temp)

def stmHardCRC32 (hcrc : CrcHandle) (pBuffer : List (BitVec 32)) : CrcHandle × BitVec 32 :=
  halCrcCalculate hcrc pBuffer

/-! ### Both loops as shift registers -/

/-- The mask `xbit` after `k` passes selects the bit that is on top once the
word has moved up `k` places. -/
theorem and_xbit_ne_zero (word : BitVec 32) {k : Nat} (inside : k < 32) :
    word &&& ((1#32 <<< 31) >>> k) ≠ 0#32 ↔ (word <<< k).msb = true := by
  have selected : (1#32 <<< 31) >>> k = BitVec.twoPow 32 (31 - k) := by
    apply BitVec.eq_of_getLsbD_eq
    intro i bound
    simp only [BitVec.getLsbD_ushiftRight, BitVec.getLsbD_shiftLeft, BitVec.getLsbD_one,
      BitVec.getLsbD_twoPow]
    grind
  have top : (word <<< k).msb = word.getLsbD (31 - k) := by
    rw [BitVec.msb_eq_getLsbD_last, BitVec.getLsbD_shiftLeft]
    grind
  rw [selected, BitVec.and_twoPow, top]
  split
  · next set =>
      have nonzero : BitVec.twoPow 32 (31 - k) ≠ 0#32 := by
        intro zero
        have bit := congrArg (fun value => value.getLsbD (31 - k)) zero
        simp only [BitVec.getLsbD_twoPow, BitVec.getLsbD_zero] at bit
        grind
      exact iff_of_true nonzero set
  · next clear => exact iff_of_false (fun differ => differ rfl) clear

/-- A pass of the inner loop feeds one bit to the register. -/
theorem softCrcBit_eq_feed (data crc32 : BitVec 32) {k : Nat} (inside : k < 32) :
    softCrcBit data ((1#32 <<< 31) >>> k) crc32 =
      ShiftRegister.feed dwPolynomial crc32 (data <<< k).msb := by
  have shifted : (if crc32 &&& 0x80000000#32 ≠ 0#32 then (crc32 <<< 1) ^^^ dwPolynomial
      else crc32 <<< 1) = ShiftRegister.shift dwPolynomial crc32 := by
    have top := and_xbit_ne_zero crc32 (show 0 < 32 by decide)
    rw [BitVec.ushiftRight_zero, BitVec.shiftLeft_zero] at top
    exact if_congr top rfl rfl
  unfold softCrcBit ShiftRegister.feed
  rw [shifted]
  exact if_congr (and_xbit_ne_zero data inside) rfl rfl

theorem crcUnitShifts_eq_shifts (count : Nat) (register : BitVec 32) :
    crcUnitShifts count register = ShiftRegister.shifts crcUnitPolynomial count register := by
  induction count generalizing register with
  | zero => rfl
  | succ count inductionHypothesis =>
      rw [crcUnitShifts, ShiftRegister.shifts, inductionHypothesis]
      rfl

/-- Injecting the bits of a word from bit `31 - k` down is adding what is left
of the word before the remaining shifts. -/
theorem softCrcBits_eq_shifts (data crc32 : BitVec 32) {count k : Nat} (total : count + k = 32) :
    softCrcBits data count ((1#32 <<< 31) >>> k) crc32 =
      ShiftRegister.shifts dwPolynomial count (crc32 ^^^ (data <<< k)) := by
  induction count generalizing k crc32 with
  | zero =>
      have used : data <<< k = 0#32 := BitVec.shiftLeft_eq_zero (by omega)
      rw [used, BitVec.xor_zero]
      rfl
  | succ count inductionHypothesis =>
      rw [softCrcBits, softCrcBit_eq_feed data crc32 (by omega), ← BitVec.shiftRight_add,
        inductionHypothesis _ (by omega), ShiftRegister.shifts_succ_xor, BitVec.shiftLeft_add]

/-- The software feeds back what is wired into the unit. -/
theorem dwPolynomial_eq_crcUnitPolynomial : dwPolynomial = crcUnitPolynomial := rfl

/-- One word of the software loop is one write to the data register. -/
theorem softCrcBits_eq_writeDr (data : BitVec 32) (hcrc : CrcHandle) :
    softCrcBits data 32 (1#32 <<< 31) hcrc.dr = (hcrc.writeDr data).dr := by
  have whole := softCrcBits_eq_shifts data hcrc.dr (show 32 + 0 = 32 by rfl)
  rw [BitVec.ushiftRight_zero, BitVec.shiftLeft_zero] at whole
  rw [whole, CrcHandle.writeDr, crcUnitShifts_eq_shifts, dwPolynomial_eq_crcUnitPolynomial]

/-- The software loop keeps its register equal to the data register. -/
theorem softCrcWords_eq_foldl (buffer : List (BitVec 32)) (hcrc : CrcHandle) :
    softCrcWords buffer hcrc.dr = (buffer.foldl CrcHandle.writeDr hcrc).dr := by
  induction buffer generalizing hcrc with
  | nil => rfl
  | cons data rest inductionHypothesis =>
      rw [softCrcWords, List.foldl_cons, softCrcBits_eq_writeDr, inductionHypothesis]

/-- On every buffer the software value is the one the CRC unit returns. -/
theorem stmSoftCRC32_eq_stmHardCRC32 (hcrc : CrcHandle) (buffer : List (BitVec 32)) :
    stmSoftCRC32 buffer = (stmHardCRC32 hcrc buffer).2 :=
  softCrcWords_eq_foldl buffer (CrcHandle.drReset { hcrc with state := HalCrcState.busy })

end RttIctl.Bsp
