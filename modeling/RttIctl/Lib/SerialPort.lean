import Mathlib.Data.List.Induction

/-!
Owns register files behind a byte-serial port: a command byte selects a register
to read or to write, and the four bytes of the register follow, most significant
first. A whole write transfer stores the word it carries; a whole read transfer
returns the register's word and changes nothing. Also the last of a list of
writes that meets a condition.

It does not own the layout of any command byte.
-/

namespace RttIctl.Lib

universe u

/-- What a command byte asks for. -/
inductive Request (κ : Type u)
  | read (key : κ)
  | write (key : κ)
  | other
  deriving DecidableEq, Repr

/-- Where the port is between two bytes. -/
inductive Phase (κ : Type u)
  | command
  | reading (key : κ) (left : Nat)
  | writing (key : κ) (left : Nat) (word : BitVec 32)
  deriving DecidableEq, Repr

/-- A register file and the phase of its port. -/
structure SerialPort (κ : Type u) where
  phase : Phase κ
  registers : κ → BitVec 32

namespace SerialPort

variable {κ : Type u} [DecidableEq κ]

/-- Byte `left` of a word, counted from the least significant. -/
def byteAt (word : BitVec 32) (left : Nat) : BitVec 8 :=
  (word >>> (8 * left)).setWidth 8

def store (port : SerialPort κ) (key : κ) (word : BitVec 32) : SerialPort κ :=
  { phase := .command
    registers := fun other => if other = key then word else port.registers other }

/-- One byte each way: the port afterwards and the byte it sent. -/
def exchange (decode : BitVec 8 → Request κ) (port : SerialPort κ) (mosi : BitVec 8) :
    SerialPort κ × BitVec 8 :=
  match port.phase with
  | .command =>
      match decode mosi with
      | .read key => ({ port with phase := .reading key 3 }, 0)
      | .write key => ({ port with phase := .writing key 3 0#32 }, 0)
      | .other => (port, 0)
  | .reading key left =>
      let phase := match left with
        | 0 => .command
        | left + 1 => .reading key left
      ({ port with phase := phase }, byteAt (port.registers key) left)
  | .writing key left word =>
      let word := (word <<< 8) ||| mosi.setWidth 32
      match left with
      | 0 => (port.store key word, 0)
      | left + 1 => ({ port with phase := .writing key left word }, 0)

/-- A transfer of several bytes. -/
def transfer (decode : BitVec 8 → Request κ) :
    SerialPort κ → List (BitVec 8) → SerialPort κ × List (BitVec 8)
  | port, [] => (port, [])
  | port, mosi :: rest =>
      let (next, miso) := port.exchange decode mosi
      let (last, more) := transfer decode next rest
      (last, miso :: more)

/-- The bytes of a word, most significant first. -/
def bytesOf (word : BitVec 32) : List (BitVec 8) :=
  [byteAt word 3, byteAt word 2, byteAt word 1, byteAt word 0]

/-- The word that four bytes carry, most significant first. -/
def wordOf (first second third fourth : BitVec 8) : BitVec 32 :=
  (first.setWidth 32 <<< 24) ||| (second.setWidth 32 <<< 16) ||| (third.setWidth 32 <<< 8) |||
    fourth.setWidth 32

/-- Reading back the bytes of a word gives the word. -/
theorem wordOf_bytesOf (word : BitVec 32) :
    wordOf (byteAt word 3) (byteAt word 2) (byteAt word 1) (byteAt word 0) = word := by
  apply BitVec.eq_of_getLsbD_eq
  intro i inside
  simp only [wordOf, byteAt, BitVec.getLsbD_or, BitVec.getLsbD_shiftLeft, BitVec.getLsbD_setWidth,
    BitVec.getLsbD_ushiftRight]
  grind

/-- A write command and four bytes store the word they carry. -/
theorem transfer_write {decode : BitVec 8 → Request κ} {port : SerialPort κ} {command : BitVec 8}
    {key : κ} (idle : port.phase = .command) (asked : decode command = .write key)
    (word : BitVec 32) :
    (port.transfer decode (command :: bytesOf word)).1 = port.store key word := by
  have shifted : ((((0#32 <<< 8 ||| (byteAt word 3).setWidth 32) <<< 8 |||
      (byteAt word 2).setWidth 32) <<< 8 ||| (byteAt word 1).setWidth 32) <<< 8 |||
      (byteAt word 0).setWidth 32) = word := by
    rw [← wordOf_bytesOf word]
    apply BitVec.eq_of_getLsbD_eq
    intro i inside
    simp only [wordOf, byteAt, BitVec.getLsbD_or, BitVec.getLsbD_shiftLeft,
      BitVec.getLsbD_setWidth, BitVec.getLsbD_ushiftRight, BitVec.getLsbD_zero]
    grind
  simp only [bytesOf, transfer, exchange, idle, asked, store]
  rw [shifted]

/-- A read command and four bytes return the register and leave the port as it
was. -/
theorem transfer_read {decode : BitVec 8 → Request κ} {port : SerialPort κ} {command : BitVec 8}
    {key : κ} (idle : port.phase = .command) (asked : decode command = .read key)
    (first second third fourth : BitVec 8) :
    port.transfer decode [command, first, second, third, fourth] =
      (port, 0 :: bytesOf (port.registers key)) := by
  have same : ({ port with phase := .command } : SerialPort κ) = port := by
    rw [← idle]
  simp only [transfer, exchange, idle, asked, bytesOf]
  rw [same]

@[simp]
theorem store_phase (port : SerialPort κ) (key : κ) (word : BitVec 32) :
    (port.store key word).phase = .command := rfl

theorem store_registers (port : SerialPort κ) (key other : κ) (word : BitVec 32) :
    (port.store key word).registers other =
      if other = key then word else port.registers other := rfl

end SerialPort

/-! ### The last write -/

section Latest

variable {α β : Type u}

/-- The value of the last call that meets the condition, or what was there
earlier. -/
def latest (named : α → Prop) [DecidablePred named] (value : α → β) (calls : List α)
    (earlier : β) : β :=
  calls.foldl (fun kept call => if named call then value call else kept) earlier

variable {named other : α → Prop} [DecidablePred named] [DecidablePred other] {value : α → β}

theorem latest_append_singleton (calls : List α) (call : α) (earlier : β) :
    latest named value (calls ++ [call]) earlier =
      if named call then value call else latest named value calls earlier := by
  rw [latest, List.foldl_append]
  rfl

theorem latest_congr (same : ∀ call, named call ↔ other call) (calls : List α) (earlier : β) :
    latest named value calls earlier = latest other value calls earlier := by
  induction calls using List.reverseRecOn with
  | nil => rfl
  | append_singleton rest call inductionHypothesis =>
      rw [latest_append_singleton, latest_append_singleton, inductionHypothesis]
      exact if_congr (same call) rfl rfl

theorem latest_of_never (never : ∀ call, ¬ named call) (calls : List α) (earlier : β) :
    latest named value calls earlier = earlier := by
  induction calls using List.reverseRecOn with
  | nil => rfl
  | append_singleton rest call inductionHypothesis =>
      rw [latest_append_singleton, if_neg (never call), inductionHypothesis]

/-- The last call of two kinds is the last of one of them. -/
theorem latest_or (calls : List α) (earlier : β) :
    latest (fun call => named call ∨ other call) value calls earlier =
        latest named value calls earlier ∨
      ∀ earlier', latest (fun call => named call ∨ other call) value calls earlier =
        latest other value calls earlier' := by
  induction calls using List.reverseRecOn with
  | nil => exact Or.inl rfl
  | append_singleton rest call inductionHypothesis =>
      simp only [latest_append_singleton]
      by_cases first : named call
      · rw [if_pos (Or.inl first), if_pos first]
        exact Or.inl rfl
      by_cases second : other call
      · rw [if_pos (Or.inr second)]
        exact Or.inr fun _ => (if_pos second).symm
      · have neither : ¬ (named call ∨ other call) := not_or.mpr ⟨first, second⟩
        rw [if_neg neither, if_neg first]
        simp only [if_neg second]
        exact inductionHypothesis

end Latest

end RttIctl.Lib
