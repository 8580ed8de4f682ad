import RttIctl.Lib.Burst
import RttIctl.Bsp.Hcrc32

/-!
Owns what `stm_softCRC32` detects: the loop as one bit string fed into the
register, most significant bit of each word first, and different values for two
buffers that differ within 32 consecutive bits.

It does not own the CRC unit or longer differences.
-/

namespace RttIctl.Bsp

open Lib

/-- The bits of a word, most significant first. -/
def wordBits (word : BitVec 32) : List Bool :=
  (List.range 32).map word.getMsbD

/-- A buffer read as one bit string. -/
def bitString (buffer : List (BitVec 32)) : List Bool :=
  buffer.flatMap wordBits

/-! ### The loops as one bit string -/

theorem softCrcBits_eq_feedAll (data crc32 : BitVec 32) {count k : Nat} (total : count + k = 32) :
    softCrcBits data count ((1#32 <<< 31) >>> k) crc32 =
      ShiftRegister.feedAll dwPolynomial crc32 ((List.range' k count).map data.getMsbD) := by
  induction count generalizing k crc32 with
  | zero => rfl
  | succ count inductionHypothesis =>
      have selected : (data <<< k).msb = data.getMsbD k := by
        rw [BitVec.msb, BitVec.getMsbD_shiftLeft, Nat.zero_add]
      rw [softCrcBits, softCrcBit_eq_feed data crc32 (by omega), ← BitVec.shiftRight_add,
        inductionHypothesis _ (by omega), selected]
      rfl

theorem softCrcWords_eq_feedAll (buffer : List (BitVec 32)) (crc32 : BitVec 32) :
    softCrcWords buffer crc32 = ShiftRegister.feedAll dwPolynomial crc32 (bitString buffer) := by
  induction buffer generalizing crc32 with
  | nil => rfl
  | cons data rest inductionHypothesis =>
      have word : softCrcBits data 32 (1#32 <<< 31) crc32 =
          ShiftRegister.feedAll dwPolynomial crc32 (wordBits data) := by
        rw [wordBits, List.range_eq_range', ← softCrcBits_eq_feedAll data crc32 (k := 0) rfl]
        rfl
      rw [softCrcWords, word, inductionHypothesis, bitString, bitString, List.flatMap_cons,
        ShiftRegister.feedAll, ShiftRegister.feedAll, ShiftRegister.feedAll, List.foldl_append]

/-! ### Differences -/

theorem wordBits_xor (word word' : BitVec 32) :
    wordBits (word ^^^ word') = List.zipWith (· ^^ ·) (wordBits word) (wordBits word') := by
  rw [wordBits, wordBits, wordBits, List.zipWith_map, List.zipWith_self]
  apply List.map_congr_left
  intro position _
  exact BitVec.getMsbD_xor

theorem length_wordBits (word : BitVec 32) : (wordBits word).length = 32 := by
  rw [wordBits, List.length_map, List.length_range]

theorem length_bitString (buffer : List (BitVec 32)) :
    (bitString buffer).length = 32 * buffer.length := by
  induction buffer with
  | nil => rfl
  | cons data rest inductionHypothesis =>
      rw [bitString, List.flatMap_cons, List.length_append, length_wordBits, ← bitString,
        inductionHypothesis, List.length_cons]
      omega

/-- The difference of two buffers, word by word, is that of their bit strings. -/
theorem bitString_xor {buffer buffer' : List (BitVec 32)}
    (sameLength : buffer.length = buffer'.length) :
    bitString (List.zipWith (· ^^^ ·) buffer buffer') =
      List.zipWith (· ^^ ·) (bitString buffer) (bitString buffer') := by
  induction buffer generalizing buffer' with
  | nil => rfl
  | cons data rest inductionHypothesis =>
      cases buffer' with
      | nil => exact absurd sameLength (Nat.succ_ne_zero rest.length)
      | cons data' rest' =>
          have heads : (wordBits data).length = (wordBits data').length := by
            rw [length_wordBits, length_wordBits]
          have tails := inductionHypothesis (Nat.succ.inj sameLength)
          unfold bitString at tails ⊢
          rw [List.zipWith_cons_cons, List.flatMap_cons, List.flatMap_cons, List.flatMap_cons,
            List.zipWith_append heads, tails, wordBits_xor]

/-- Two buffers of one length that differ, and only within 32 consecutive bits,
never have the same CRC. -/
theorem stmSoftCRC32_detects_burst {buffer buffer' : List (BitVec 32)}
    (sameLength : buffer.length = buffer'.length)
    (burst : IsBurst 32 (bitString (List.zipWith (· ^^^ ·) buffer buffer'))) :
    stmSoftCRC32 buffer ≠ stmSoftCRC32 buffer' := by
  have lengths : (bitString buffer).length = (bitString buffer').length := by
    rw [length_bitString, length_bitString, sameLength]
  rw [bitString_xor sameLength] at burst
  rw [stmSoftCRC32, stmSoftCRC32, softCrcWords_eq_feedAll, softCrcWords_eq_feedAll]
  exact ShiftRegister.feedAll_ne_of_burst dwPolynomial (by decide) lengths burst _

/-- The last bit of one word and the first bit of the next. -/
theorem stmSoftCRC32_detects_straddling_burst :
    stmSoftCRC32 [0x00000001#32, 0x80000000#32] ≠ stmSoftCRC32 [0x00000000#32, 0x00000000#32] := by
  have sameLength : [0x00000001#32, 0x80000000#32].length =
      [0x00000000#32, 0x00000000#32].length := rfl
  apply stmSoftCRC32_detects_burst sameLength
  have difference : bitString (List.zipWith (· ^^^ ·) [0x00000001#32, 0x80000000#32]
      [0x00000000#32, 0x00000000#32]) =
      List.replicate 31 false ++ ([true, true] ++ List.replicate 31 false) := by
    decide
  rw [difference]
  refine ⟨by simp, 31, ?_⟩
  intro position set
  rw [List.getElem?_append, List.getElem?_append, List.length_replicate] at set
  grind

end RttIctl.Bsp
