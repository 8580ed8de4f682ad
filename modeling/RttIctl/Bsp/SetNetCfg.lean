import Mathlib.Data.List.Basic
import RttIctl.Applications.UsrParam

/-!
Owns `setNetCfg` and `setDefNetCfg`: which interface a new configuration is
installed in, and which configuration the three ways of going back to the
defaults leave behind. The search for the interface never reports that there is
none; a list without the interface has its last one changed instead, after the
new configuration has been stored. What the setters return is dropped, so an
interface that takes no static addresses keeps its own and the call succeeds.

It does not own the connection, which `setCurNetCfg` closes and reopens around
the change.
-/

namespace RttIctl.Bsp

open Lib.PagedMemory
open Packages.At24cxx
open Netdev
open Applications

def saveNetCfg (b : Board) : Board := (writeNetParam b).2

/-- The comparison is `memcmp` over the whole record, the bytes between its
members included. -/
def setNetCfg (b : Board) (netCfg : NetParam) : RtErr × Board :=
  let bakCfg := b.paramNet
  let b := { b with paramNet := netCfg }
  if bakCfg.image ≠ b.paramNet.image then
    let b := saveNetCfg b
    match searchNetdev b.netdevs with
    | none => (.error, b)
    | some netdev =>
        (.eok, { b with netdevs := (setCurNetCfg b.paramNet b.netdevs (some netdev)).2 })
  else (.eok, b)

/-- `defCfg` is what the uninitialised local variable holds; `localPort`, `state`
and the bytes between the members keep it. -/
def setDefNetCfg (b : Board) (defCfg : NetParam) : RtErr × Board :=
  let defCfg :=
    { defCfg with
      ipAddr := (netdevIp4addrAton "192.168.8.30".toList).getD defCfg.ipAddr
      gwAddr := (netdevIp4addrAton "192.168.8.1".toList).getD defCfg.gwAddr
      nmAddr := (netdevIp4addrAton "255.255.255.0".toList).getD defCfg.nmAddr
      serviceIp := (netdevIp4addrAton "192.168.8.121".toList).getD defCfg.serviceIp
      servicePort := 9008
      tcpOrUdp := 0 }
  (.eok, (setNetCfg b defCfg).2)

/-! ### The interface that is changed -/

theorem image_injective {p q : NetParam} (same : p.image = q.image) : p = q := by
  rw [← p.ofImage_image, ← q.ofImage_image, same]

/-- A board with a blank EEPROM and one interface. -/
def boardWith (name : List Char) : Board where
  at24cxx := some fun _ => 0xFF
  paramNet := ⟨1, 2, 3, 0, 0, 0, 4, 9008, 0, 0⟩
  netdevs := [⟨name, true, false, 1, 2, 3⟩]

/-- The default configuration, with `DEF_LOCAL_PORT` and no pending change. -/
def defNetParam : NetParam where
  ipAddr := (netdevIp4addrAton "192.168.8.30".toList).getD 0
  gwAddr := (netdevIp4addrAton "192.168.8.1".toList).getD 0
  nmAddr := (netdevIp4addrAton "255.255.255.0".toList).getD 0
  tcpOrUdp := 0
  gap := 0
  localPort := 0
  serviceIp := (netdevIp4addrAton "192.168.8.121".toList).getD 0
  servicePort := 9008
  state := 0
  tail := 0

/-- The default configuration with the bytes between its members of another. -/
def paddedDefault (p : NetParam) : NetParam := { defNetParam with gap := p.gap, tail := p.tail }

/-- A configuration without the bytes between its members. -/
def fields (p : NetParam) : NetParam := { p with gap := 0, tail := 0 }

/-- The configuration is the default one in every field, and the stored record
equals it. -/
structure HoldsDefaults (b : Board) : Prop where
  default : fields b.paramNet = defNetParam
  stored : b.record 64 24 = some b.paramNet.image

/-- The three ways of installing the defaults leave the same configuration. -/
structure OneDefault (b : Board) (defCfg : NetParam) : Prop where
  set : HoldsDefaults (setDefNetCfg b defCfg).2
  read : HoldsDefaults (readNetParam b).2
  init : HoldsDefaults (initNetParam b)

/-- `netdev_ip4addr_aton` takes the four default texts, so no field keeps what
was there. -/
theorem default_addresses :
    netdevIp4addrAton "192.168.8.30".toList = some 0x1E08A8C0 ∧
      netdevIp4addrAton "192.168.8.1".toList = some 0x0108A8C0 ∧
      netdevIp4addrAton "255.255.255.0".toList = some 0x00FFFFFF ∧
      netdevIp4addrAton "192.168.8.121".toList = some 0x7908A8C0 := by decide

/-- What `loadDefNetParam` sets, over what was there. -/
theorem loadDefNetParam_eq (p : NetParam) :
    loadDefNetParam p =
      { defNetParam with gap := p.gap, state := p.state, tail := p.tail } := by
  obtain ⟨ip, gw, nm, service⟩ := default_addresses
  simp only [loadDefNetParam, defNetParam, ip, gw, nm, service, Option.getD_some]

/-- `setDefNetCfg` installs the defaults over what the local variable held. -/
theorem setDefNetCfg_eq (b : Board) (defCfg : NetParam) :
    setDefNetCfg b defCfg = (.eok, (setNetCfg b
      { paddedDefault defCfg with
        localPort := defCfg.localPort
        state := defCfg.state }).2) := by
  obtain ⟨ip, gw, nm, service⟩ := default_addresses
  simp only [setDefNetCfg, paddedDefault, defNetParam, ip, gw, nm, service, Option.getD_some]

section

variable {eeprom : Eeprom} {flag : UInt8}

theorem ofImage_blank (isFlag : flag = 0xFF ∨ flag = 0x00) :
    (NetParam.ofImage (List.replicate 24 flag)).image = List.replicate 24 flag ∧
      (NetParam.ofImage (List.replicate 24 flag)).state = flag := by
  rcases isFlag with rfl | rfl <;> decide

/-- On a blank record the defaults are loaded over the blank bytes and stored,
whatever the RAM held. -/
theorem readNetParam_blank (isFlag : flag = 0xFF ∨ flag = 0x00)
    (blank : window eeprom 64 24 = List.replicate 24 flag) (ram : NetParam)
    (netdevs : List NetIf) :
    (readNetParam ⟨some eeprom, ram, netdevs⟩).2 =
      ⟨some (store eeprom 64
          (loadDefNetParam (NetParam.ofImage (List.replicate 24 flag))).image),
        loadDefNetParam (NetParam.ofImage (List.replicate 24 flag)), netdevs⟩ := by
  obtain ⟨image, -⟩ := ofImage_blank isFlag
  have empty : (hexIsEmpty dataEmpty (List.replicate 24 flag) ||
      hexIsEmpty 0x00 (List.replicate 24 flag)) = true := by
    rcases isFlag with rfl | rfl <;> decide
  simp only [readNetParam, record_read, blank, image, empty, if_true, writeNetParam_eq]

theorem stored_record (eeprom : Eeprom) (p : NetParam) (netdevs : List NetIf) :
    (Board.mk (some (store eeprom 64 p.image)) p netdevs).record 64 24 = some p.image := by
  have back := window_store eeprom 64 p.image
  rw [p.length_image] at back
  exact congrArg some back

theorem holdsDefaults_iff_state (eeprom : Eeprom) (p : NetParam) (netdevs : List NetIf) :
    HoldsDefaults ⟨some (store eeprom 64 (loadDefNetParam p).image), loadDefNetParam p, netdevs⟩ ↔
      p.state = 0 := by
  have same : fields (loadDefNetParam p) = defNetParam ↔ p.state = 0 := by
    rw [loadDefNetParam_eq]
    simp [fields, defNetParam]
  constructor
  · intro holds
    exact same.mp holds.default
  · intro clear
    exact ⟨same.mpr clear, stored_record eeprom _ netdevs⟩

theorem read_holdsDefaults_iff (isFlag : flag = 0xFF ∨ flag = 0x00)
    (blank : window eeprom 64 24 = List.replicate 24 flag) (ram : NetParam)
    (netdevs : List NetIf) :
    HoldsDefaults (readNetParam ⟨some eeprom, ram, netdevs⟩).2 ↔ flag = 0 := by
  rw [readNetParam_blank isFlag blank, holdsDefaults_iff_state, (ofImage_blank isFlag).2]

theorem init_holdsDefaults_iff (isFlag : flag = 0xFF ∨ flag = 0x00)
    (blank : window eeprom 64 24 = List.replicate 24 flag) (ram : NetParam)
    (netdevs : List NetIf) :
    HoldsDefaults (initNetParam ⟨some eeprom, ram, netdevs⟩) ↔ flag = 0 := by
  simp only [initNetParam, readNetParam_blank isFlag blank]
  rw [holdsDefaults_iff_state, (ofImage_blank isFlag).2]

/-- `setNetCfg` takes the configuration over in any case, and stores it when it
differs from the one before. -/
theorem setNetCfg_kept (eeprom : Eeprom) (ram netCfg : NetParam) (netdevs : List NetIf) :
    (setNetCfg ⟨some eeprom, ram, netdevs⟩ netCfg).2.paramNet = netCfg ∧
      (setNetCfg ⟨some eeprom, ram, netdevs⟩ netCfg).2.record 64 24 =
        some (if ram = netCfg then window eeprom 64 24 else netCfg.image) := by
  by_cases same : ram = netCfg
  · subst same
    simp [setNetCfg, Board.record]
  · have changed : ram.image ≠ netCfg.image := fun equal => same (image_injective equal)
    have stored := stored_record eeprom netCfg netdevs
    simp only [setNetCfg, if_pos changed, if_neg same, saveNetCfg, writeNetParam_eq]
    split
    · exact ⟨rfl, stored⟩
    · exact ⟨rfl, stored⟩

/-- No configuration with the default address is blank. -/
theorem image_ne_blank (isFlag : flag = 0xFF ∨ flag = 0x00) {p : NetParam}
    (address : p.ipAddr = defNetParam.ipAddr) : List.replicate 24 flag ≠ p.image := by
  intro same
  have read := p.ofImage_image
  rw [← same] at read
  rw [← read] at address
  rcases isFlag with rfl | rfl
  · exact absurd address (by decide)
  · exact absurd address (by decide)

theorem set_holdsDefaults_iff (isFlag : flag = 0xFF ∨ flag = 0x00)
    (blank : window eeprom 64 24 = List.replicate 24 flag) (ram defCfg : NetParam)
    (netdevs : List NetIf) :
    HoldsDefaults (setDefNetCfg ⟨some eeprom, ram, netdevs⟩ defCfg).2 ↔
      defCfg.localPort = 0 ∧ defCfg.state = 0 ∧
        ram ≠ paddedDefault defCfg := by
  have cleared : defCfg.localPort = 0 → defCfg.state = 0 →
      { paddedDefault defCfg with localPort := defCfg.localPort, state := defCfg.state } =
        paddedDefault defCfg := by
    intro noPort noState
    rw [noPort, noState]
    rfl
  rw [setDefNetCfg_eq]
  constructor
  · rintro ⟨default, stored⟩
    rw [(setNetCfg_kept eeprom ram _ netdevs).1] at default
    have clear : defCfg.localPort = 0 ∧ defCfg.state = 0 := by
      simpa [fields, paddedDefault, defNetParam] using default
    refine ⟨clear.1, clear.2, ?_⟩
    rw [cleared clear.1 clear.2] at stored
    obtain ⟨paramNet, record⟩ := setNetCfg_kept eeprom ram (paddedDefault defCfg) netdevs
    rw [paramNet, record] at stored
    intro same
    rw [if_pos same, blank] at stored
    have address : (paddedDefault defCfg).ipAddr = defNetParam.ipAddr := rfl
    exact image_ne_blank isFlag address (Option.some.inj stored)
  · rintro ⟨noPort, noState, different⟩
    rw [cleared noPort noState]
    obtain ⟨paramNet, record⟩ := setNetCfg_kept eeprom ram (paddedDefault defCfg) netdevs
    constructor
    · rw [paramNet]
      rfl
    · rw [record, paramNet, if_neg different]

end

/-- From any previous configuration, any contents of the uninitialised local
variable and any blank record, the three ways of installing the defaults leave
one configuration, stored, exactly when the blank bytes are zero, the local
variable happens to hold zero in the two fields that are not set, and the
previous configuration was not already the default one with the same bytes
between its members. -/
theorem one_default_iff (eeprom : Eeprom) (ram defCfg : NetParam) (netdevs : List NetIf)
    (flag : UInt8) (isFlag : flag = 0xFF ∨ flag = 0x00)
    (blank : window eeprom 64 24 = List.replicate 24 flag) :
    OneDefault ⟨some eeprom, ram, netdevs⟩ defCfg ↔
      flag = 0 ∧ defCfg.localPort = 0 ∧ defCfg.state = 0 ∧
        ram ≠ paddedDefault defCfg := by
  have read := read_holdsDefaults_iff isFlag blank ram netdevs
  have set := set_holdsDefaults_iff isFlag blank ram defCfg netdevs
  have init := init_holdsDefaults_iff isFlag blank ram netdevs
  constructor
  · intro one
    exact ⟨read.mp one.read, set.mp one.set⟩
  · rintro ⟨zero, rest⟩
    exact ⟨set.mpr rest, read.mpr zero, init.mpr zero⟩

theorem one_default_zeroed :
    OneDefault ⟨some fun _ => 0x00, ⟨1, 2, 3, 0, 0, 0, 4, 9008, 0, 0⟩, []⟩
      ⟨0, 0, 0, 0, 0, 0, 0, 0, 0, 0⟩ :=
  (one_default_iff (fun _ => 0x00) ⟨1, 2, 3, 0, 0, 0, 4, 9008, 0, 0⟩
    ⟨0, 0, 0, 0, 0, 0, 0, 0, 0, 0⟩ [] 0x00 (.inr rfl) (by decide)).mpr (by decide)

/-- An erased EEPROM leaves a pending change behind, and whatever the local
variable held becomes the local port. -/
theorem one_default_erased :
    ¬ OneDefault ⟨some fun _ => 0xFF, ⟨1, 2, 3, 0, 0, 0, 4, 9008, 0, 0⟩, []⟩
        ⟨0, 0, 0, 0, 0, 4660, 0, 0, 0, 0⟩ ∧
      (initNetParam ⟨some fun _ => 0xFF, ⟨1, 2, 3, 0, 0, 0, 4, 9008, 0, 0⟩, []⟩).paramNet.state =
        0xFF ∧
      (setDefNetCfg ⟨some fun _ => 0xFF, ⟨1, 2, 3, 0, 0, 0, 4, 9008, 0, 0⟩, []⟩
        ⟨0, 0, 0, 0, 0, 4660, 0, 0, 0, 0⟩).2.paramNet.localPort = 4660 := by
  have pending : (initNetParam
      ⟨some fun _ => 0xFF, ⟨1, 2, 3, 0, 0, 0, 4, 9008, 0, 0⟩, []⟩).paramNet.state = 0xFF := by
    decide +kernel
  refine ⟨fun one => ?_, pending, by decide +kernel⟩
  have clear := congrArg NetParam.state one.init.default
  rw [fields, pending] at clear
  exact absurd clear (by decide)

end RttIctl.Bsp
