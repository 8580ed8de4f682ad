import RttIctl.Lib.SerialPort

/-!
Owns the register access of the CS5532 driver: `cs5532_wrReg`, `cs5532_rdReg`
and `cs5532_csrSet` over the serial port of the converter, and what a sequence of
`cs5532_csrSet` calls leaves in the channel-setup registers. `CMD_CS2` is 0x01, a
bit that `CMD_CSR_REG` already has, so set 2 selects the register of set 1.

It does not own calibration, conversion or the readings.
-/

namespace RttIctl.Bsp

open Lib

/-! ### Command bytes -/

def cmdCs1 : BitVec 8 := 0x00
def cmdCs2 : BitVec 8 := 0x01
def cmdCs3 : BitVec 8 := 0x20
def cmdCs4 : BitVec 8 := 0x30

/-- `CMD_RD`. -/
def cmdRd : BitVec 8 := 0x08

/-- `CMD_CSR_REG`. -/
def cmdCsrReg : BitVec 8 := 0x05

def ucmdCsrset1 : UInt8 := 0x00
def ucmdCsrset2 : UInt8 := 0x01
def ucmdCsrset3 : UInt8 := 0x02
def ucmdCsrset4 : UInt8 := 0x03

/-- A register of the converter: its type and, for channel setup, its index. -/
abbrev RegisterKey := BitVec 3 × BitVec 2

/-- How the converter reads a command byte. Bit 7 asks for a conversion or a
calibration; otherwise bits 2 to 0 are the type of register, bit 3 reads, and
bits 5 and 4 are the index. -/
def commandRequest (command : BitVec 8) : Request RegisterKey :=
  let key := (command.setWidth 3, (command >>> 4).setWidth 2)
  if command.getLsbD 7 then .other
  else if command.getLsbD 3 then .read key
  else .write key

abbrev Cs5532 := SerialPort RegisterKey

/-- Channel-setup register `index` of the converter. -/
def csrKey (index : BitVec 2) : RegisterKey := (5, index)

/-! ### The driver -/

def cs5532WrReg (pDev : Cs5532) (reg : BitVec 8) (data : BitVec 32) : Cs5532 :=
  let txBuf :=
    [reg,
      ((data >>> 24) &&& 0xFF).setWidth 8,
      ((data >>> 16) &&& 0xFF).setWidth 8,
      ((data >>> 8) &&& 0xFF).setWidth 8,
      (data &&& 0xFF).setWidth 8]
  (pDev.transfer commandRequest txBuf).1

/-- While it receives, the bus sends the receive buffer, filled with `0xFF`. -/
def cs5532RdReg (pDev : Cs5532) (reg : BitVec 8) : Cs5532 × BitVec 32 :=
  let reg := reg ||| cmdRd
  let (pDev, miso) := pDev.transfer commandRequest [reg, 0xFF, 0xFF, 0xFF, 0xFF]
  let rxBuf := miso.drop 1
  (pDev, ((rxBuf.getD 0 0).setWidth 32 <<< 24) ||| ((rxBuf.getD 1 0).setWidth 32 <<< 16) |||
    ((rxBuf.getD 2 0).setWidth 32 <<< 8) ||| (rxBuf.getD 3 0).setWidth 32)

/-- The selector `cs5532_csrSet` takes for a set; none for any other index. -/
def csrSelector (setIdx : UInt8) : Option (BitVec 8) :=
  if ucmdCsrset1 = setIdx then some cmdCs1
  else if ucmdCsrset2 = setIdx then some cmdCs2
  else if ucmdCsrset3 = setIdx then some cmdCs3
  else if ucmdCsrset4 = setIdx then some cmdCs4
  else none

/-- `CSR_SET1(data1) | CSR_SET2(data2)`. -/
def csrData (data1 data2 : BitVec 16) : BitVec 32 :=
  (data1.setWidth 32 <<< 16) ||| data2.setWidth 32

/-- A call of `cs5532_csrSet`. -/
structure CsrCall where
  setIdx : UInt8
  data1 : BitVec 16
  data2 : BitVec 16
  deriving DecidableEq, Repr

def CsrCall.data (call : CsrCall) : BitVec 32 :=
  csrData call.data1 call.data2

def cs5532CsrSet (pDev : Cs5532) (call : CsrCall) : Cs5532 :=
  match csrSelector call.setIdx with
  | none => pDev
  | some cs => cs5532WrReg pDev (cmdCsrReg ||| cs) call.data

/-- A sequence of calls. -/
def csrSetAll (pDev : Cs5532) (calls : List CsrCall) : Cs5532 :=
  calls.foldl cs5532CsrSet pDev

/-! ### What is asked of the channel-setup registers -/

/-- The data of the last call naming a set, or the register's earlier contents. -/
def lastSet (setIdx : UInt8) (calls : List CsrCall) (earlier : BitVec 32) : BitVec 32 :=
  latest (fun call => call.setIdx = setIdx) CsrCall.data calls earlier

/-- Set `setIdx` has register `setIdx` to itself: after the calls the register
holds the data of the last call naming it, and reading it returns just that and
changes nothing. -/
def KeepsSet (pDev : Cs5532) (calls : List CsrCall) (setIdx : UInt8) : Prop :=
  ∀ cs, csrSelector setIdx = some cs →
    let after := csrSetAll pDev calls
    let key := csrKey (BitVec.ofNat 2 setIdx.toNat)
    let expected := lastSet setIdx calls (pDev.registers key)
    after.registers key = expected ∧
      cs5532RdReg after (cmdCsrReg ||| cs) = (after, expected)

/-! ### Single accesses -/

variable {pDev : Cs5532}

theorem cs5532WrReg_eq_store (idle : pDev.phase = .command) {reg : BitVec 8} {key : RegisterKey}
    (asked : commandRequest reg = .write key) (data : BitVec 32) :
    cs5532WrReg pDev reg data = pDev.store key data := by
  have masked (word : BitVec 32) : (word &&& 0xFF).setWidth 8 = word.setWidth 8 := by
    apply BitVec.eq_of_getLsbD_eq
    intro i inside
    have byte : (0xFF : BitVec 32).getLsbD i = true := by
      revert inside
      revert i
      decide
    rw [BitVec.getLsbD_setWidth, BitVec.getLsbD_setWidth, BitVec.getLsbD_and, byte, Bool.and_true]
  have stored := SerialPort.transfer_write idle asked data
  rw [← stored, cs5532WrReg, masked, masked, masked, masked, SerialPort.bytesOf]
  simp only [SerialPort.byteAt, Nat.mul_zero, BitVec.ushiftRight_zero]

theorem cs5532RdReg_eq (idle : pDev.phase = .command) {reg : BitVec 8} {key : RegisterKey}
    (asked : commandRequest (reg ||| cmdRd) = .read key) :
    cs5532RdReg pDev reg = (pDev, pDev.registers key) := by
  rw [cs5532RdReg, SerialPort.transfer_read idle asked]
  exact congrArg (Prod.mk pDev) (SerialPort.wordOf_bytesOf _)

/-- The register that a set really selects. -/
def selectedIndex (setIdx : UInt8) : Option (BitVec 2) :=
  if setIdx = ucmdCsrset1 ∨ setIdx = ucmdCsrset2 then some 0
  else if setIdx = ucmdCsrset3 then some 2
  else if setIdx = ucmdCsrset4 then some 3
  else none

/-- A set the driver takes sends command bytes that write and read the register
it selects. -/
theorem commandRequest_of_selector {setIdx : UInt8} {cs : BitVec 8}
    (selector : csrSelector setIdx = some cs) :
    ∃ index, selectedIndex setIdx = some index ∧
      commandRequest (cmdCsrReg ||| cs) = .write (csrKey index) ∧
      commandRequest (cmdCsrReg ||| cs ||| cmdRd) = .read (csrKey index) := by
  unfold csrSelector at selector
  split at selector
  · next first =>
      subst first
      obtain rfl := Option.some.inj selector
      exact ⟨0, rfl, by decide, by decide⟩
  split at selector
  · next second =>
      subst second
      obtain rfl := Option.some.inj selector
      exact ⟨0, rfl, by decide, by decide⟩
  split at selector
  · next third =>
      subst third
      obtain rfl := Option.some.inj selector
      exact ⟨2, rfl, by decide, by decide⟩
  split at selector
  · next fourth =>
      subst fourth
      obtain rfl := Option.some.inj selector
      exact ⟨3, rfl, by decide, by decide⟩
  · exact absurd selector (Option.some_ne_none cs).symm

theorem selectedIndex_of_no_selector {setIdx : UInt8} (refused : csrSelector setIdx = none) :
    selectedIndex setIdx = none := by
  unfold csrSelector at refused
  unfold selectedIndex
  grind

/-! ### Sequences of calls -/

/-- A call stores its data in the register its set selects and leaves the other
channel-setup registers. -/
theorem cs5532CsrSet_spec (idle : pDev.phase = .command) (call : CsrCall) :
    (cs5532CsrSet pDev call).phase = .command ∧
      ∀ index, (cs5532CsrSet pDev call).registers (csrKey index) =
        if selectedIndex call.setIdx = some index then call.data
        else pDev.registers (csrKey index) := by
  unfold cs5532CsrSet
  cases selector : csrSelector call.setIdx with
  | none =>
      rw [selectedIndex_of_no_selector selector]
      exact ⟨idle, fun index => rfl⟩
  | some cs =>
      obtain ⟨selected, chosen, asked, _⟩ := commandRequest_of_selector selector
      dsimp only
      rw [cs5532WrReg_eq_store idle asked]
      refine ⟨rfl, fun index => ?_⟩
      rw [SerialPort.store_registers, chosen]
      have keys : csrKey index = csrKey selected ↔ some selected = some index := by
        rw [csrKey, csrKey, Prod.mk.injEq, Option.some.injEq]
        exact ⟨fun same => same.2.symm, fun same => ⟨rfl, same.symm⟩⟩
      exact if_congr keys rfl rfl

theorem csrSetAll_spec (idle : pDev.phase = .command) (calls : List CsrCall) :
    (csrSetAll pDev calls).phase = .command ∧
      ∀ index, (csrSetAll pDev calls).registers (csrKey index) =
        latest (fun call => selectedIndex call.setIdx = some index) CsrCall.data calls
          (pDev.registers (csrKey index)) := by
  induction calls generalizing pDev with
  | nil => exact ⟨idle, fun index => rfl⟩
  | cons call rest inductionHypothesis =>
      obtain ⟨stillIdle, stored⟩ := cs5532CsrSet_spec idle call
      obtain ⟨finallyIdle, last⟩ := inductionHypothesis stillIdle
      refine ⟨finallyIdle, fun index => (last index).trans ?_⟩
      rw [stored index]
      rfl

/-- What keeping a set comes to: its own register and the one it selects. -/
theorem keepsSet_iff (idle : pDev.phase = .command) (calls : List CsrCall) {setIdx : UInt8}
    {cs : BitVec 8} {own selected : BitVec 2} (selector : csrSelector setIdx = some cs)
    (named : BitVec.ofNat 2 setIdx.toNat = own) (chosen : selectedIndex setIdx = some selected) :
    KeepsSet pDev calls setIdx ↔
      (csrSetAll pDev calls).registers (csrKey own) =
          lastSet setIdx calls (pDev.registers (csrKey own)) ∧
        (csrSetAll pDev calls).registers (csrKey selected) =
          lastSet setIdx calls (pDev.registers (csrKey own)) := by
  obtain ⟨index, found, _, asked⟩ := commandRequest_of_selector selector
  rw [chosen, Option.some.injEq] at found
  subst found
  have read := cs5532RdReg_eq (csrSetAll_spec idle calls).1 asked
  unfold KeepsSet
  rw [named, selector]
  simp only [Option.some.injEq, forall_eq', read, Prod.mk.injEq, true_and]

/-- Sets 3 and 4 have their registers to themselves. -/
theorem keepsSet_of_own (idle : pDev.phase = .command) (calls : List CsrCall) {setIdx : UInt8}
    {cs : BitVec 8} {own : BitVec 2} (selector : csrSelector setIdx = some cs)
    (named : BitVec.ofNat 2 setIdx.toNat = own)
    (only : ∀ other, selectedIndex other = some own ↔ other = setIdx) :
    KeepsSet pDev calls setIdx := by
  have chosen := (only setIdx).mpr rfl
  have stored := ((csrSetAll_spec idle calls).2 own).trans
    (latest_congr (fun call => only call.setIdx) calls _)
  exact (keepsSet_iff idle calls selector named chosen).mpr ⟨stored, stored⟩

/-- The data of the last call naming set 1 or set 2. -/
def lastOfBoth (calls : List CsrCall) (earlier : BitVec 32) : BitVec 32 :=
  latest (fun call => call.setIdx = ucmdCsrset1 ∨ call.setIdx = ucmdCsrset2) CsrCall.data calls
    earlier

/-- Sets 1 and 2 share register 1. -/
theorem csrSet_register_zero (idle : pDev.phase = .command) (calls : List CsrCall) :
    (csrSetAll pDev calls).registers (csrKey 0) =
      lastOfBoth calls (pDev.registers (csrKey 0)) := by
  refine ((csrSetAll_spec idle calls).2 0).trans (latest_congr (fun call => ?_) calls _)
  unfold selectedIndex
  grind [ucmdCsrset1, ucmdCsrset2, ucmdCsrset3, ucmdCsrset4]

/-- No set selects register 2. -/
theorem csrSet_register_one (idle : pDev.phase = .command) (calls : List CsrCall) :
    (csrSetAll pDev calls).registers (csrKey 1) = pDev.registers (csrKey 1) := by
  refine ((csrSetAll_spec idle calls).2 1).trans (latest_of_never (fun call => ?_) calls _)
  unfold selectedIndex
  grind [ucmdCsrset1, ucmdCsrset2, ucmdCsrset3, ucmdCsrset4]

theorem lastOfBoth_eq (calls : List CsrCall) {first second value : BitVec 32}
    (ofFirst : value = lastSet ucmdCsrset1 calls first)
    (ofSecond : value = lastSet ucmdCsrset2 calls second) :
    lastOfBoth calls first = lastSet ucmdCsrset1 calls first := by
  have either : lastOfBoth calls first = lastSet ucmdCsrset1 calls first ∨
      ∀ earlier, lastOfBoth calls first = lastSet ucmdCsrset2 calls earlier :=
    latest_or calls first
  rcases either with same | same
  · exact same
  · exact (same second).trans (ofSecond.symm.trans ofFirst)

/-! ### Set by set -/

theorem keepsSet_one_iff (idle : pDev.phase = .command) (calls : List CsrCall) :
    KeepsSet pDev calls ucmdCsrset1 ↔
      lastOfBoth calls (pDev.registers (csrKey 0)) =
        lastSet ucmdCsrset1 calls (pDev.registers (csrKey 0)) := by
  have both := keepsSet_iff idle calls (show csrSelector ucmdCsrset1 = some cmdCs1 from rfl)
    (show BitVec.ofNat 2 ucmdCsrset1.toNat = 0 from rfl) (show selectedIndex _ = some 0 from rfl)
  rw [csrSet_register_zero idle, and_self_iff] at both
  exact both

/-- The data of set 2 goes to register 1, and register 2 is never written. -/
theorem keepsSet_two_iff (idle : pDev.phase = .command) (calls : List CsrCall) :
    KeepsSet pDev calls ucmdCsrset2 ↔
      pDev.registers (csrKey 1) = lastSet ucmdCsrset2 calls (pDev.registers (csrKey 1)) ∧
        lastOfBoth calls (pDev.registers (csrKey 0)) =
          lastSet ucmdCsrset2 calls (pDev.registers (csrKey 1)) := by
  have both := keepsSet_iff idle calls (show csrSelector ucmdCsrset2 = some cmdCs2 from rfl)
    (show BitVec.ofNat 2 ucmdCsrset2.toNat = 1 from rfl) (show selectedIndex _ = some 0 from rfl)
  rw [csrSet_register_zero idle, csrSet_register_one idle] at both
  exact both

theorem keepsSet_three (idle : pDev.phase = .command) (calls : List CsrCall) :
    KeepsSet pDev calls ucmdCsrset3 := by
  apply keepsSet_of_own idle calls (show csrSelector ucmdCsrset3 = some cmdCs3 from rfl)
    (show BitVec.ofNat 2 ucmdCsrset3.toNat = 2 from rfl)
  intro other
  unfold selectedIndex
  grind [ucmdCsrset1, ucmdCsrset2, ucmdCsrset3, ucmdCsrset4]

theorem keepsSet_four (idle : pDev.phase = .command) (calls : List CsrCall) :
    KeepsSet pDev calls ucmdCsrset4 := by
  apply keepsSet_of_own idle calls (show csrSelector ucmdCsrset4 = some cmdCs4 from rfl)
    (show BitVec.ofNat 2 ucmdCsrset4.toNat = 3 from rfl)
  intro other
  unfold selectedIndex
  grind [ucmdCsrset1, ucmdCsrset2, ucmdCsrset3, ucmdCsrset4]

/-- The driver knows no fifth set. -/
theorem keepsSet_all_iff (idle : pDev.phase = .command) (calls : List CsrCall) :
    (∀ setIdx, KeepsSet pDev calls setIdx) ↔
      KeepsSet pDev calls ucmdCsrset1 ∧ KeepsSet pDev calls ucmdCsrset2 := by
  constructor
  · intro keeps
    exact ⟨keeps ucmdCsrset1, keeps ucmdCsrset2⟩
  rintro ⟨first, second⟩ setIdx cs selector
  by_cases isFirst : setIdx = ucmdCsrset1
  · rw [isFirst] at selector ⊢
    exact first cs selector
  by_cases isSecond : setIdx = ucmdCsrset2
  · rw [isSecond] at selector ⊢
    exact second cs selector
  by_cases isThird : setIdx = ucmdCsrset3
  · rw [isThird] at selector ⊢
    exact keepsSet_three idle calls cs selector
  by_cases isFourth : setIdx = ucmdCsrset4
  · rw [isFourth] at selector ⊢
    exact keepsSet_four idle calls cs selector
  rw [csrSelector, if_neg (Ne.symm isFirst), if_neg (Ne.symm isSecond),
    if_neg (Ne.symm isThird), if_neg (Ne.symm isFourth)] at selector
  exact absurd selector (Option.some_ne_none cs).symm

/-- After any calls, every set has its register to itself exactly when register 2
held from the start what both set 1 and set 2 are to hold now. Sets 3 and 4 are
right in every case. -/
theorem csrSet_keeps_iff (idle : pDev.phase = .command) (calls : List CsrCall) :
    ((∀ setIdx, KeepsSet pDev calls setIdx) ↔
      pDev.registers (csrKey 1) =
          lastSet ucmdCsrset1 calls (pDev.registers (csrKey 0)) ∧
        pDev.registers (csrKey 1) =
          lastSet ucmdCsrset2 calls (pDev.registers (csrKey 1))) ∧
      KeepsSet pDev calls ucmdCsrset3 ∧ KeepsSet pDev calls ucmdCsrset4 := by
  refine ⟨?_, keepsSet_three idle calls, keepsSet_four idle calls⟩
  rw [keepsSet_all_iff idle, keepsSet_one_iff idle, keepsSet_two_iff idle]
  constructor
  · rintro ⟨shared, untouched, alsoShared⟩
    exact ⟨untouched.trans (alsoShared.symm.trans shared), untouched⟩
  · rintro ⟨ofFirst, ofSecond⟩
    have shared := lastOfBoth_eq calls ofFirst ofSecond
    exact ⟨shared, ofSecond, shared.trans (ofFirst.symm.trans ofSecond)⟩

/-- A converter whose registers are all zero, waiting for a command. -/
def blankCs5532 : Cs5532 where
  phase := .command
  registers := fun _ => 0

/-- One call for set 2: register 2 stays as it was. -/
theorem set_two_not_kept :
    ¬ KeepsSet blankCs5532 [⟨ucmdCsrset2, 0x0940, 0x00C0⟩] ucmdCsrset2 := by
  intro keeps
  have held := (keeps cmdCs2 rfl).1
  rw [show csrKey (BitVec.ofNat 2 ucmdCsrset2.toNat) = csrKey 1 from rfl,
    csrSet_register_one rfl] at held
  exact absurd held (by decide)

/-- Setting registers 1, 3 and 4 to what register 2 holds anyway is kept, the
call for set 2 is not. -/
theorem blankCs5532_keeps_iff :
    (∀ setIdx, KeepsSet blankCs5532
        [⟨ucmdCsrset1, 0, 0⟩, ⟨ucmdCsrset3, 1, 2⟩, ⟨ucmdCsrset4, 3, 4⟩] setIdx) ∧
      ¬ ∀ setIdx, KeepsSet blankCs5532 [⟨ucmdCsrset2, 0x0940, 0x00C0⟩] setIdx := by
  obtain ⟨kept, _, _⟩ := csrSet_keeps_iff (show blankCs5532.phase = .command from rfl)
    [⟨ucmdCsrset1, 0, 0⟩, ⟨ucmdCsrset3, 1, 2⟩, ⟨ucmdCsrset4, 3, 4⟩]
  obtain ⟨lost, _, _⟩ := csrSet_keeps_iff (show blankCs5532.phase = .command from rfl)
    [⟨ucmdCsrset2, 0x0940, 0x00C0⟩]
  refine ⟨kept.mpr ⟨by decide, by decide⟩, fun keeps => ?_⟩
  exact absurd (lost.mp keeps).2 (by decide)

end RttIctl.Bsp
