import RttIctl.Packages.At24cxx
import RttIctl.Bsp.NetCfg

/-!
Owns the records kept in the EEPROM: the software version at offset 0 and the
network parameters at offset 64, with the code that writes them, reads them at
power-up and falls back to the defaults when the record is blank.
-/

namespace RttIctl.Applications

open Lib.PagedMemory
open Packages.At24cxx
open Netdev
open Bsp

/-- `PARAM_SOFTVERSION_BASE`. -/
def paramSoftversionBase : UInt32 := 0

/-- `PARAM_NET_CFG_BASE`. -/
def paramNetCfgBase : UInt32 := 64

/-- `at24cxx` is `none` when `AT24cxx_HDL` is `RT_NULL`. -/
structure Board where
  at24cxx : Option Eeprom
  paramNet : NetParam
  netdevs : List NetIf

/-- A power cycle keeps the EEPROM; the RAM comes up with any contents, and the
interfaces are registered again. -/
def Board.powerCycle (b : Board) (paramNet : NetParam) (netdevs : List NetIf) : Board :=
  ⟨b.at24cxx, paramNet, netdevs⟩

/-! ### The software version -/

/-- `CLEAN_DB_FLAG` and the numbers of `version.h`. -/
def version : List UInt8 := [0x01, 0, 0, 0, 1, 21, 1, 31]

/-- `none` is the failed assertion of the driver on a null device. -/
def loadSoftVersion (b : Board) : Option Board :=
  match b.at24cxx with
  | none => none
  | some eeprom =>
      match at24cxxRead eeprom paramSoftversionBase 8 with
      | some buf =>
          if buf ≠ version then
            some { b with
              at24cxx := some ((at24cxxPageWrite eeprom paramSoftversionBase version).getD eeprom) }
          else some b
      | none =>
          some { b with
            at24cxx := some ((at24cxxPageWrite eeprom paramSoftversionBase version).getD eeprom) }

def loadSoftVersions : Nat → Board → Option Board
  | 0, b => some b
  | runs + 1, b => (loadSoftVersion b).bind (loadSoftVersions runs)

/-! ### The network parameters -/

def hexIsEmpty (flag : UInt8) : List UInt8 → Bool
  | [] => true
  | byte :: buf => if byte ≠ flag then false else hexIsEmpty flag buf

/-- The fields that `loadDefNetParam` does not name keep their values. -/
def loadDefNetParam (paramNet : NetParam) : NetParam :=
  { paramNet with
    ipAddr := (netdevIp4addrAton "192.168.8.30".toList).getD paramNet.ipAddr
    gwAddr := (netdevIp4addrAton "192.168.8.1".toList).getD paramNet.gwAddr
    nmAddr := (netdevIp4addrAton "255.255.255.0".toList).getD paramNet.nmAddr
    serviceIp := (netdevIp4addrAton "192.168.8.121".toList).getD paramNet.serviceIp
    localPort := 0
    servicePort := 9008
    tcpOrUdp := 0 }

def writeNetParam (b : Board) : RtErr × Board :=
  match b.at24cxx with
  | none => (.eempty, b)
  | some eeprom =>
      match at24cxxPageWrite eeprom paramNetCfgBase b.paramNet.image with
      | none => (.error, b)
      | some written => (.eok, { b with at24cxx := some written })

/-- `DATA_EMPTY`. -/
def dataEmpty : UInt8 := 0xFF

def readNetParam (b : Board) : RtErr × Board :=
  match b.at24cxx with
  | none => (.eempty, b)
  | some eeprom =>
      match at24cxxRead eeprom paramNetCfgBase 24 with
      | none => (.error, (writeNetParam { b with paramNet := loadDefNetParam b.paramNet }).2)
      | some bytes =>
          let read := NetParam.ofImage bytes
          if hexIsEmpty dataEmpty read.image || hexIsEmpty 0x00 read.image then
            (.eok, (writeNetParam { b with paramNet := loadDefNetParam read }).2)
          else (.eok, { b with paramNet := read })

def initNetParam (b : Board) : Board :=
  let loaded := (readNetParam { b with paramNet := loadDefNetParam b.paramNet }).2
  { loaded with netdevs := (setCurNetCfg loaded.paramNet loaded.netdevs none).2 }

/-! ### What the accesses do -/

theorem version_read (eeprom : Eeprom) :
    at24cxxRead eeprom paramSoftversionBase 8 = some (window eeprom 0 8) :=
  at24cxxRead_eq_window eeprom (by decide)

theorem version_written (eeprom : Eeprom) :
    at24cxxPageWrite eeprom paramSoftversionBase version = some (store eeprom 0 version) :=
  at24cxxPageWrite_eq_store eeprom (by decide)

theorem record_read (eeprom : Eeprom) :
    at24cxxRead eeprom paramNetCfgBase 24 = some (window eeprom 64 24) :=
  at24cxxRead_eq_window eeprom (by decide)

theorem record_written (eeprom : Eeprom) (p : NetParam) :
    at24cxxPageWrite eeprom paramNetCfgBase p.image = some (store eeprom 64 p.image) := by
  refine at24cxxPageWrite_eq_store eeprom ?_
  rw [p.length_image]
  decide

theorem hexIsEmpty_iff (flag : UInt8) (buf : List UInt8) :
    hexIsEmpty flag buf = true ↔ buf = List.replicate buf.length flag := by
  induction buf with
  | nil => simp [hexIsEmpty]
  | cons byte buf inductionHypothesis =>
      simp only [hexIsEmpty, List.length_cons, List.replicate_succ, List.cons.injEq]
      by_cases same : byte = flag
      · simp [same, inductionHypothesis]
      · simp [same]

/-- A run of `loadSoftVersion` writes the version record unless it is in place. -/
theorem loadSoftVersion_eq (eeprom : Eeprom) (p : NetParam) (netdevs : List NetIf) :
    loadSoftVersion ⟨some eeprom, p, netdevs⟩ =
      some ⟨some (if window eeprom 0 8 = version then eeprom else store eeprom 0 version), p,
        netdevs⟩ := by
  by_cases same : window eeprom 0 8 = version
  · simp [loadSoftVersion, version_read, same]
  · simp [loadSoftVersion, version_read, version_written, same]

theorem writeNetParam_eq (eeprom : Eeprom) (p : NetParam) (netdevs : List NetIf) :
    writeNetParam ⟨some eeprom, p, netdevs⟩ =
      (.eok, ⟨some (store eeprom 64 p.image), p, netdevs⟩) := by
  simp [writeNetParam, record_written]

/-- A record that is not blank replaces the parameters, whatever they were. -/
theorem readNetParam_eq {eeprom : Eeprom} {p : NetParam} (record : window eeprom 64 24 = p.image)
    (notZero : p.image ≠ List.replicate NetParam.size 0x00)
    (notErased : p.image ≠ List.replicate NetParam.size 0xFF) (ram : NetParam)
    (netdevs : List NetIf) :
    readNetParam ⟨some eeprom, ram, netdevs⟩ = (.eok, ⟨some eeprom, p, netdevs⟩) := by
  have zero : hexIsEmpty 0x00 p.image = false := by
    rw [← Bool.not_eq_true, hexIsEmpty_iff, p.length_image]
    exact notZero
  have erased : hexIsEmpty dataEmpty p.image = false := by
    rw [← Bool.not_eq_true, hexIsEmpty_iff, p.length_image]
    exact notErased
  simp [readNetParam, record_read, record, p.ofImage_image, zero, erased]

/-! ### The two records -/

/-- What the EEPROM holds from an offset on. -/
def Board.record (b : Board) (offset count : Nat) : Option (List UInt8) :=
  b.at24cxx.map fun eeprom => window eeprom offset count

theorem loadSoftVersion_record {b later : Board} (ran : loadSoftVersion b = some later) :
    later.record 64 24 = b.record 64 24 := by
  obtain ⟨at24cxx, p, netdevs⟩ := b
  cases at24cxx with
  | none => simp [loadSoftVersion] at ran
  | some eeprom =>
      rw [loadSoftVersion_eq, Option.some.injEq] at ran
      subst ran
      have apart : window (store eeprom 0 version) 64 24 = window eeprom 64 24 :=
        window_store_of_disjoint (Or.inr (by decide))
      by_cases same : window eeprom 0 8 = version
      · simp [Board.record, same]
      · simp [Board.record, same, apart]

theorem writeNetParam_record (b : Board) : (writeNetParam b).2.record 0 8 = b.record 0 8 := by
  obtain ⟨at24cxx, p, netdevs⟩ := b
  cases at24cxx with
  | none => rfl
  | some eeprom =>
      have apart : window (store eeprom 64 p.image) 0 8 = window eeprom 0 8 :=
        window_store_of_disjoint (Or.inl (by decide))
      simp [writeNetParam_eq, Board.record, apart]

/-- Runs of `loadSoftVersion` keep the record of network parameters. -/
theorem loadSoftVersions_record (runs : Nat) (eeprom : Eeprom) (p : NetParam)
    (netdevs : List NetIf) :
    ∃ later, loadSoftVersions runs ⟨some eeprom, p, netdevs⟩ = some ⟨some later, p, netdevs⟩ ∧
      window later 64 24 = window eeprom 64 24 := by
  induction runs generalizing eeprom with
  | zero => exact ⟨eeprom, rfl, rfl⟩
  | succ runs inductionHypothesis =>
      have once := loadSoftVersion_eq eeprom p netdevs
      have kept := loadSoftVersion_record once
      obtain ⟨later, ran, record⟩ := inductionHypothesis
        (if window eeprom 0 8 = version then eeprom else store eeprom 0 version)
      refine ⟨later, ?_, record.trans (Option.some.inj kept)⟩
      rw [loadSoftVersions, once, Option.bind_some, ran]

/-- Written parameters come back after a power cycle in every field, whatever
the EEPROM held, however often `loadSoftVersion` ran in between, and whatever
the RAM held at power-up. Neither record is altered by writing the other. -/
theorem netParam_survives_power_cycle (p : NetParam)
    (notZero : p.image ≠ List.replicate NetParam.size 0x00)
    (notErased : p.image ≠ List.replicate NetParam.size 0xFF) :
    (∀ (eeprom : Eeprom) (netdevs netdevsAfter : List NetIf) (runs : Nat) (ram : NetParam),
      ∃ b, loadSoftVersions runs (writeNetParam ⟨some eeprom, p, netdevs⟩).2 = some b ∧
        (initNetParam (b.powerCycle ram netdevsAfter)).paramNet = p) ∧
      (∀ b, (writeNetParam b).2.record 0 8 = b.record 0 8) ∧
      (∀ b later, loadSoftVersion b = some later → later.record 64 24 = b.record 64 24) := by
  refine ⟨?_, writeNetParam_record, fun _ _ ran => loadSoftVersion_record ran⟩
  intro eeprom netdevs netdevsAfter runs ram
  obtain ⟨later, ran, kept⟩ :=
    loadSoftVersions_record runs (store eeprom 64 p.image) p netdevs
  have stored : window (store eeprom 64 p.image) 64 24 = p.image := by
    have back := window_store eeprom 64 p.image
    rwa [p.length_image] at back
  refine ⟨⟨some later, p, netdevs⟩, ?_, ?_⟩
  · rw [writeNetParam_eq, ran]
  · simp only [initNetParam, Board.powerCycle]
    rw [readNetParam_eq (kept.trans stored) notZero notErased]

/-- The defaults, written to an erased EEPROM. -/
theorem netParam_survives_defaults :
    ∃ b, loadSoftVersions 3 (writeNetParam
        ⟨some fun _ => 0xFF, loadDefNetParam ⟨0, 0, 0, 0, 0, 0, 0, 0, 0, 0⟩, []⟩).2 = some b ∧
      (initNetParam (b.powerCycle ⟨1, 2, 3, 4, 5, 6, 7, 8, 9, 10⟩ [])).paramNet =
        loadDefNetParam ⟨0, 0, 0, 0, 0, 0, 0, 0, 0, 0⟩ :=
  (netParam_survives_power_cycle _ (by decide) (by decide)).1 _ _ _ _ _

end RttIctl.Applications
