import RttIctl.Lib.PagedMemory

/-!
Owns the driver of the AT24C256 memory: `at24cxx_read`, which reads byte by
byte, and `at24cxx_page_write`, which splits a write at page boundaries.

Every transfer on the bus succeeds and reaches the one memory, since `AddrInput`
is `AT24CXX_ADDR`; the mutex is granted, and the device stores a page write
within the addressed page. It does not own the bus, nor the write delay.
-/

namespace RttIctl.Packages.At24cxx

open Lib.PagedMemory

/-- `AT24CXX_PAGE_BYTE`. -/
def pageByte : Nat := 64

/-- `AT24CXX_MAX_MEM_ADDRESS`. -/
def maxMemAddress : Nat := 32768

abbrev Eeprom := Nat → UInt8

/-- The cell an address selects: two address bytes are sent, and the device
ignores the top bit. -/
def cell (address : UInt32) : Nat := address.toNat % maxMemAddress

def at24cxxReadOneByte (eeprom : Eeprom) (readAddr : UInt32) : UInt8 := eeprom (cell readAddr)

def at24cxxWritePage (eeprom : Eeprom) (writeAddr : UInt32) (buffer : List UInt8) : Eeprom :=
  pageStore pageByte eeprom (cell writeAddr) buffer

/-- The loop of `at24cxx_read`. -/
def readBytes (eeprom : Eeprom) (readAddr : UInt32) : Nat → List UInt8
  | 0 => []
  | numToRead + 1 => at24cxxReadOneByte eeprom readAddr :: readBytes eeprom (readAddr + 1) numToRead

/-- `none` is `RT_ERROR`, with the caller's buffer untouched. -/
def at24cxxRead (eeprom : Eeprom) (readAddr : UInt32) (numToRead : UInt16) :
    Option (List UInt8) :=
  if maxMemAddress < (readAddr + numToRead.toUInt32).toNat then none
  else some (readBytes eeprom readAddr numToRead.toNat)

/-- The loop of `at24cxx_page_write`. `pageWriteSize` is what the current page
still holds. -/
def writePages (eeprom : Eeprom) (writeAddr : UInt32) (pageWriteSize : Nat)
    (_room : 0 < pageWriteSize) (buffer : List UInt8) : Eeprom :=
  if buffer.length = 0 then eeprom
  else if pageWriteSize < buffer.length then
    writePages (at24cxxWritePage eeprom writeAddr (buffer.take pageWriteSize))
      (writeAddr + UInt32.ofNat pageWriteSize) pageByte (by decide) (buffer.drop pageWriteSize)
  else at24cxxWritePage eeprom writeAddr buffer
termination_by buffer.length
decreasing_by
  rw [List.length_drop]
  omega

theorem firstPage_pos (writeAddr : UInt32) : 0 < pageByte - writeAddr.toNat % pageByte :=
  Nat.sub_pos_of_lt (Nat.mod_lt _ (by decide))

/-- `buffer` holds `NumToWrite` bytes; `none` is `RT_ERROR`, with nothing
written. -/
def at24cxxPageWrite (eeprom : Eeprom) (writeAddr : UInt32) (buffer : List UInt8) :
    Option Eeprom :=
  if maxMemAddress < (writeAddr + UInt32.ofNat buffer.length).toNat then none
  else some (writePages eeprom writeAddr (pageByte - writeAddr.toNat % pageByte)
    (firstPage_pos writeAddr) buffer)

/-! ### Both are plain accesses of the memory -/

theorem cell_of_lt {address : UInt32} (inside : address.toNat < maxMemAddress) :
    cell address = address.toNat := Nat.mod_eq_of_lt inside

/-- An address that stays in the memory does not overflow. -/
theorem toNat_add_ofNat {address : UInt32} {count : Nat}
    (inside : address.toNat + count ≤ maxMemAddress) :
    (address + UInt32.ofNat count).toNat = address.toNat + count := by
  have size : maxMemAddress = 32768 := rfl
  rw [UInt32.toNat_add, UInt32.toNat_ofNat', Nat.add_mod_mod]
  exact Nat.mod_eq_of_lt (by omega)

theorem readBytes_eq_window (eeprom : Eeprom) {readAddr : UInt32} {numToRead : Nat}
    (inside : readAddr.toNat + numToRead ≤ maxMemAddress) :
    readBytes eeprom readAddr numToRead = window eeprom readAddr.toNat numToRead := by
  induction numToRead generalizing readAddr with
  | zero => rfl
  | succ numToRead inductionHypothesis =>
      have next : (readAddr + 1).toNat = readAddr.toNat + 1 :=
        toNat_add_ofNat (show readAddr.toNat + 1 ≤ maxMemAddress by omega)
      rw [readBytes, window, inductionHypothesis (by omega), next, at24cxxReadOneByte,
        cell_of_lt (by omega)]

theorem at24cxxRead_eq_window (eeprom : Eeprom) {readAddr : UInt32} {numToRead : UInt16}
    (inside : readAddr.toNat + numToRead.toNat ≤ maxMemAddress) :
    at24cxxRead eeprom readAddr numToRead =
      some (window eeprom readAddr.toNat numToRead.toNat) := by
  have last : (readAddr + numToRead.toUInt32).toNat = readAddr.toNat + numToRead.toNat := by
    simpa using toNat_add_ofNat inside
  rw [at24cxxRead, if_neg (by omega), readBytes_eq_window eeprom inside]

/-- A write within one page. -/
theorem at24cxxWritePage_eq_store (eeprom : Eeprom) {writeAddr : UInt32} {buffer : List UInt8}
    (inside : writeAddr.toNat < maxMemAddress)
    (fits : writeAddr.toNat % pageByte + buffer.length ≤ pageByte) :
    at24cxxWritePage eeprom writeAddr buffer = store eeprom writeAddr.toNat buffer := by
  rw [at24cxxWritePage, cell_of_lt inside, pageStore_eq_store fits]

/-- Each pass fills the rest of its page, so that the next one starts a page. -/
theorem writePages_eq_store {eeprom : Eeprom} {writeAddr : UInt32} {pageWriteSize : Nat}
    {room : 0 < pageWriteSize} {buffer : List UInt8}
    (inside : writeAddr.toNat + buffer.length ≤ maxMemAddress)
    (boundary : writeAddr.toNat % pageByte + pageWriteSize = pageByte) :
    writePages eeprom writeAddr pageWriteSize room buffer =
      store eeprom writeAddr.toNat buffer := by
  fun_induction writePages eeprom writeAddr pageWriteSize room buffer with
  | case1 eeprom writeAddr pageWriteSize room buffer empty =>
      obtain rfl : buffer = [] := List.eq_nil_of_length_eq_zero empty
      rfl
  | case2 eeprom writeAddr pageWriteSize room buffer more beyond inductionHypothesis =>
      have taken : (buffer.take pageWriteSize).length = pageWriteSize := by
        rw [List.length_take]
        omega
      have next : (writeAddr + UInt32.ofNat pageWriteSize).toNat =
          writeAddr.toNat + pageWriteSize := toNat_add_ofNat (by omega)
      have aligned : (writeAddr.toNat + pageWriteSize) % pageByte = 0 := by
        have rest : writeAddr.toNat % 64 + pageWriteSize = 64 := boundary
        show (writeAddr.toNat + pageWriteSize) % 64 = 0
        omega
      rw [inductionHypothesis]
      · have whole := store_append eeprom writeAddr.toNat (buffer.take pageWriteSize)
          (buffer.drop pageWriteSize)
        rw [List.take_append_drop, taken] at whole
        rw [next, at24cxxWritePage_eq_store eeprom (by omega) (by omega), whole]
      · rw [next, List.length_drop]
        omega
      · rw [next, aligned, Nat.zero_add]
  | case3 eeprom writeAddr pageWriteSize room buffer more last =>
      exact at24cxxWritePage_eq_store eeprom (by omega) (by omega)

theorem at24cxxPageWrite_eq_store (eeprom : Eeprom) {writeAddr : UInt32} {buffer : List UInt8}
    (inside : writeAddr.toNat + buffer.length ≤ maxMemAddress) :
    at24cxxPageWrite eeprom writeAddr buffer =
      some (store eeprom writeAddr.toNat buffer) := by
  have last := toNat_add_ofNat inside
  have rest := firstPage_pos writeAddr
  rw [at24cxxPageWrite, if_neg (by omega), writePages_eq_store inside (by omega)]

end RttIctl.Packages.At24cxx
