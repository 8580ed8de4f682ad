import RttIctl.Lib.Strtol
import RttIctl.Bsp.SetNetCfg

/-!
Owns the shell command `eth_set`: how an argument vector is turned into a call
of `setNetCfg`, and how that compares with the vectors its usage text admits.
Numbers go through `atoi` and are cut to sixteen bits, the range test of the
local port is a macro that maps instead of testing, and addresses are copied to
a buffer of sixteen bytes without a length.

It does not own the shell's splitting of a line, nor what is printed.
-/

namespace RttIctl.Applications

open Lib.Strtol
open Netdev
open Bsp

/-! ### The command -/

/-- `IP4ADDR_STRLEN_MAX`. -/
def ip4addrStrlenMax : Nat := 16

/-- `strcpy` to the address buffer; `none` is a write past its end. -/
def strcpyIp (src : List Char) : Option (List Char) :=
  if src.length < ip4addrStrlenMax then some src else none

/-- `atoi` of newlib. -/
def atoi (s : List Char) : Int := strtol s

/-- The conversion of an `int` to `rt_uint16_t`. -/
def toUint16 (value : Int) : UInt16 := UInt16.ofNat (value % 2 ^ 16).toNat

/-- `UDP_LOCAL_PORT_RANGE_START`. -/
def udpLocalPortRangeStart : UInt16 := 0xc000

/-- `UDP_ENSURE_LOCAL_PORT_RANGE`: the low fourteen bits moved to the range. -/
def udpEnsureLocalPortRange (port : UInt16) : UInt16 :=
  (port &&& ~~~ udpLocalPortRangeStart) + udpLocalPortRangeStart

/-- The common body of the four address keys. -/
def setAddress (value : List Char) (put : UInt32 → NetParam) : Option (Option NetParam) :=
  (strcpyIp value).map fun ip => (netdevIp4addrAton ip).map put

/-- The branches for three arguments. The result is the configuration that
`setNetCfg` is called with, if it is called; `none` outside of that is a write
past the address buffer. -/
def ethSetKey (cfg : NetParam) (key value : List Char) : Option (Option NetParam) :=
  if key = "ip".toList then setAddress value fun addr => { cfg with ipAddr := addr }
  else if key = "gw".toList then setAddress value fun addr => { cfg with gwAddr := addr }
  else if key = "nm".toList then setAddress value fun addr => { cfg with nmAddr := addr }
  else if key = "port".toList then
    let port := toUint16 (atoi value)
    if port ≠ 0 ∧ udpEnsureLocalPortRange port ≠ 0 then some (some { cfg with localPort := port })
    else some none
  else if key = "rip".toList then setAddress value fun addr => { cfg with serviceIp := addr }
  else if key = "rport".toList then
    some (some { cfg with servicePort := toUint16 (atoi value) })
  else if key = "type".toList then
    if value = "tcp".toList then some (some { cfg with tcpOrUdp := 1 })
    else if value = "udp".toList then some (some { cfg with tcpOrUdp := 0 })
    else some none
  else some none

/-- The call of `setNetCfg` that an argument vector leads to. `show` and the
usage text only print. -/
def ethSetCall (cfg : NetParam) (argv : List (List Char)) : Option (Option NetParam) :=
  match argv with
  | [_, key, value] => ethSetKey cfg key value
  | _ => some none

/-- The call, if there is one, and what it leaves of the board. -/
def carryOut (b : Board) : Option NetParam → Option NetParam × Board
  | some cfg => (some cfg, (setNetCfg b cfg).2)
  | none => (none, b)

/-- The command, with the call of `setNetCfg` it makes and the board after it;
`none` is a write past the address buffer. -/
def ethSet (b : Board) (argv : List (List Char)) : Option (Option NetParam × Board) :=
  (ethSetCall b.paramNet argv).map (carryOut b)

/-! ### What the command should accept -/

/-- The configuration an argument vector asks for, changed in the one field it
names; `none` for every vector that is not to be accepted. -/
def specified (cfg : NetParam) (argv : List (List Char)) : Option NetParam :=
  match argv with
  | [_, key, value] =>
      if key = "ip".toList then (address value).map fun addr => { cfg with ipAddr := addr }
      else if key = "gw".toList then (address value).map fun addr => { cfg with gwAddr := addr }
      else if key = "nm".toList then (address value).map fun addr => { cfg with nmAddr := addr }
      else if key = "rip".toList then (address value).map fun addr => { cfg with serviceIp := addr }
      else if key = "port".toList then
        (localPort value).map fun port => { cfg with localPort := UInt16.ofNat port }
      else if key = "rport".toList then
        (remotePort value).map fun port => { cfg with servicePort := UInt16.ofNat port }
      else if key = "type".toList then
        if value = "tcp".toList then some { cfg with tcpOrUdp := 1 }
        else if value = "udp".toList then some { cfg with tcpOrUdp := 0 }
        else none
      else none
  | _ => none
where
  /-- At most fifteen characters that make an address. -/
  address (value : List Char) : Option UInt32 :=
    if value.length ≤ 15 then netdevIp4addrAton value else none
  /-- Zero or a port of the range. -/
  localPort (value : List Char) : Option Nat :=
    (decimal? value).filter fun port => port = 0 || (49152 ≤ port && port ≤ 65535)
  /-- A port of sixteen bits. -/
  remotePort (value : List Char) : Option Nat := (decimal? value).filter fun port => port ≤ 65535

/-- What was done against what was specified: the call with that configuration
and what it leaves, or, with nothing specified, a return with `g_paramNet` and
the stored record unchanged and nothing copied past the address buffer. -/
def Meets (b : Board) (wanted : Option NetParam) (done : Option (Option NetParam × Board)) : Prop :=
  match wanted with
  | some cfg => done = some (some cfg, (setNetCfg b cfg).2)
  | none => ∃ call after, done = some (call, after) ∧ after.paramNet = b.paramNet ∧
      after.record 64 24 = b.record 64 24

/-- The command does what is specified. -/
def AsSpecified (b : Board) (argv : List (List Char)) : Prop :=
  Meets b (specified b.paramNet argv) (ethSet b argv)

/-- The same of one branch of the command, by the call it makes. -/
def CallMeets (b : Board) (wanted : Option NetParam) (call : Option (Option NetParam)) : Prop :=
  Meets b wanted (call.map (carryOut b))

theorem asSpecified_iff_callMeets (b : Board) (argv : List (List Char)) :
    AsSpecified b argv ↔ CallMeets b (specified b.paramNet argv) (ethSetCall b.paramNet argv) :=
  Iff.rfl

/-! ### When it does -/

def isAddressKey (key : List Char) : Prop :=
  key = "ip".toList ∨ key = "gw".toList ∨ key = "nm".toList ∨ key = "rip".toList

instance (key : List Char) : Decidable (isAddressKey key) :=
  inferInstanceAs (Decidable (_ ∨ _ ∨ _ ∨ _))

/-- A port of the range, in decimal. -/
def inPortRange (value : List Char) : Prop :=
  ∃ port, decimal? value = some port ∧ 49152 ≤ port ∧ port ≤ 65535

/-- The vectors, with the configuration at hand, on which the command does what
is specified. -/
structure Faithful (cfg : NetParam) (key value : List Char) : Prop where
  address : isAddressKey key → value.length ≤ 15
  port : key = "port".toList → inPortRange value ∨ specified.localPort value = none ∧
    (toUint16 (atoi value) = 0 ∨ toUint16 (atoi value) = cfg.localPort)
  rport : key = "rport".toList → (specified.remotePort value).isSome = true ∨
    toUint16 (atoi value) = cfg.servicePort

theorem toUint16_of_decimal {value : List Char} {port : Nat} (isPort : decimal? value = some port)
    (fits : port ≤ 65535) : toUint16 (atoi value) = UInt16.ofNat port := by
  have value : atoi value = port := strtol_of_decimal isPort (by omega)
  have small : ((port : Int) % 2 ^ 16).toNat = port := by omega
  rw [toUint16, value, small]

/-- The macro never gives zero. -/
theorem udpEnsureLocalPortRange_ne_zero (port : UInt16) : udpEnsureLocalPortRange port ≠ 0 := by
  intro zero
  have low : (port &&& ~~~ udpLocalPortRangeStart).toNat ≤ 0x3fff := by
    rw [UInt16.toNat_and]
    exact Nat.and_le_right
  have sum := congrArg UInt16.toNat zero
  rw [udpEnsureLocalPortRange, UInt16.toNat_add] at sum
  have start : udpLocalPortRangeStart.toNat = 0xc000 := rfl
  have none : (0 : UInt16).toNat = 0 := rfl
  omega

section

variable (b : Board)

theorem meets_none_none : CallMeets b none (some none) := ⟨none, b, rfl, rfl, rfl⟩

theorem not_meets_overrun : ¬ CallMeets b none none := by
  rintro ⟨call, after, ran, -⟩
  cases ran

theorem setNetCfg_paramNet (netCfg : NetParam) : (setNetCfg b netCfg).2.paramNet = netCfg := by
  have saved : ∀ board : Board, (saveNetCfg board).paramNet = board.paramNet := by
    intro board
    unfold saveNetCfg writeNetParam
    split
    · rfl
    · split <;> rfl
  simp only [setNetCfg]
  split
  · split
    · rw [saved]
    · exact saved _
  · rfl

/-- A call that was not to be made leaves everything as it was only when it
changes nothing. -/
theorem meets_none_call_iff (cfg : NetParam) :
    CallMeets b none (some (some cfg)) ↔ cfg = b.paramNet := by
  constructor
  · rintro ⟨call, after, ran, same, -⟩
    cases ran
    rw [← same]
    exact (setNetCfg_paramNet b cfg).symm
  · rintro rfl
    have unchanged : carryOut b (some b.paramNet) = (some b.paramNet, b) := by
      simp [carryOut, setNetCfg]
    exact ⟨some b.paramNet, b, congrArg some unchanged, rfl, rfl⟩

theorem meets_address_iff (value : List Char) (put : UInt32 → NetParam) :
    CallMeets b ((specified.address value).map put) (setAddress value put) ↔ value.length ≤ 15 := by
  unfold specified.address setAddress strcpyIp ip4addrStrlenMax
  by_cases fits : value.length ≤ 15
  · rw [if_pos fits, if_pos (by omega)]
    refine iff_of_true ?_ fits
    rw [Option.map_some]
    cases netdevIp4addrAton value with
    | none => exact meets_none_none b
    | some addr => rfl
  · rw [if_neg fits, if_neg (by omega)]
    exact iff_of_false (not_meets_overrun b) fits

theorem localPort_eq_cfg_iff (cfg : NetParam) (port : UInt16) :
    { cfg with localPort := port } = cfg ↔ port = cfg.localPort := by
  obtain ⟨_, _, _, _, _, _, _, _, _, _⟩ := cfg
  simp

theorem servicePort_eq_cfg_iff (cfg : NetParam) (port : UInt16) :
    { cfg with servicePort := port } = cfg ↔ port = cfg.servicePort := by
  obtain ⟨_, _, _, _, _, _, _, _, _, _⟩ := cfg
  simp

theorem inPortRange_iff {value : List Char} {port : Nat} (isPort : decimal? value = some port) :
    inPortRange value ↔ 49152 ≤ port ∧ port ≤ 65535 := by
  constructor
  · rintro ⟨other, isOther, bounds⟩
    rw [isPort, Option.some.injEq] at isOther
    rwa [isOther]
  · intro bounds
    exact ⟨port, isPort, bounds⟩

/-- What is not specified is out of the range. -/
theorem not_inPortRange_of_none {value : List Char} (none : specified.localPort value = none) :
    ¬ inPortRange value := by
  rintro ⟨port, isPort, low, high⟩
  have kept : specified.localPort value = some port :=
    Option.filter_eq_some_iff.mpr ⟨isPort, by simp only [low, high]; simp⟩
  rw [kept] at none
  cases none

theorem ofNat_port_ne_zero {port : Nat} (bounds : 49152 ≤ port ∧ port ≤ 65535) :
    UInt16.ofNat port ≠ 0 := by
  intro zero
  have low := congrArg UInt16.toNat zero
  rw [UInt16.toNat_ofNat'] at low
  have none : (0 : UInt16).toNat = 0 := rfl
  omega

/-- The local port: what is specified is kept to exactly in the range, and a
value that is not specified does no harm when it is cut to zero or to the port
at hand. Zero itself is refused. -/
theorem meets_port_iff (value : List Char) :
    CallMeets b ((specified.localPort value).map fun port =>
        { b.paramNet with localPort := UInt16.ofNat port })
      (if toUint16 (atoi value) ≠ 0 ∧ udpEnsureLocalPortRange (toUint16 (atoi value)) ≠ 0 then
        some (some { b.paramNet with localPort := toUint16 (atoi value) })
      else some none) ↔
      inPortRange value ∨ specified.localPort value = none ∧
        (toUint16 (atoi value) = 0 ∨ toUint16 (atoi value) = b.paramNet.localPort) := by
  have called : (toUint16 (atoi value) ≠ 0 ∧
      udpEnsureLocalPortRange (toUint16 (atoi value)) ≠ 0) ↔ toUint16 (atoi value) ≠ 0 :=
    and_iff_left (udpEnsureLocalPortRange_ne_zero _)
  rw [if_congr called rfl rfl]
  cases wanted : specified.localPort value with
  | none =>
      simp only [not_inPortRange_of_none wanted, false_or, true_and]
      by_cases zero : toUint16 (atoi value) = 0
      · simp only [zero, ne_eq, not_true_eq_false, if_false, true_or, iff_true]
        exact meets_none_none b
      · rw [if_pos zero, or_iff_right zero]
        exact (meets_none_call_iff b _).trans (localPort_eq_cfg_iff b.paramNet _)
  | some port =>
      obtain ⟨isPort, allowed⟩ := Option.filter_eq_some_iff.mp wanted
      simp only [Bool.or_eq_true, decide_eq_true_eq, Bool.and_eq_true] at allowed
      rw [toUint16_of_decimal isPort (by omega)]
      simp only [reduceCtorEq, false_and, or_false, inPortRange_iff isPort]
      rcases allowed with rfl | bounds
      · refine iff_of_false ?_ (by omega)
        intro meets
        cases meets
      · rw [if_pos (ofNat_port_ne_zero bounds)]
        exact iff_of_true rfl bounds

theorem meets_rport_iff (value : List Char) :
    CallMeets b ((specified.remotePort value).map fun port =>
        { b.paramNet with servicePort := UInt16.ofNat port })
      (some (some { b.paramNet with servicePort := toUint16 (atoi value) })) ↔
      (specified.remotePort value).isSome = true ∨
        toUint16 (atoi value) = b.paramNet.servicePort := by
  cases wanted : specified.remotePort value with
  | none =>
      simp only [Option.isSome_none, Bool.false_eq_true, false_or]
      exact (meets_none_call_iff b _).trans (servicePort_eq_cfg_iff b.paramNet _)
  | some port =>
      obtain ⟨isPort, allowed⟩ := Option.filter_eq_some_iff.mp wanted
      rw [decide_eq_true_eq] at allowed
      refine iff_of_true ?_ (.inl rfl)
      rw [toUint16_of_decimal isPort allowed]
      rfl

end

/-! ### Key by key -/

section

variable {cfg : NetParam} {key value : List Char}

theorem faithful_address_iff (isAddress : isAddressKey key) :
    Faithful cfg key value ↔ value.length ≤ 15 := by
  have notPorts : key ≠ "port".toList ∧ key ≠ "rport".toList := by
    rcases isAddress with rfl | rfl | rfl | rfl <;> decide
  constructor
  · intro faithful
    exact faithful.address isAddress
  · intro fits
    exact ⟨fun _ => fits, fun isPort => absurd isPort notPorts.1,
      fun isRport => absurd isRport notPorts.2⟩

theorem faithful_port_iff (isPort : key = "port".toList) :
    Faithful cfg key value ↔ inPortRange value ∨ specified.localPort value = none ∧
      (toUint16 (atoi value) = 0 ∨ toUint16 (atoi value) = cfg.localPort) := by
  have others : ¬ isAddressKey key ∧ key ≠ "rport".toList := by
    subst isPort
    decide
  constructor
  · intro faithful
    exact faithful.port isPort
  · intro allowed
    exact ⟨fun isAddress => absurd isAddress others.1, fun _ => allowed,
      fun isRport => absurd isRport others.2⟩

theorem faithful_rport_iff (isRport : key = "rport".toList) :
    Faithful cfg key value ↔ (specified.remotePort value).isSome = true ∨
      toUint16 (atoi value) = cfg.servicePort := by
  have others : ¬ isAddressKey key ∧ key ≠ "port".toList := by
    subst isRport
    decide
  constructor
  · intro faithful
    exact faithful.rport isRport
  · intro allowed
    exact ⟨fun isAddress => absurd isAddress others.1, fun isPort => absurd isPort others.2,
      fun _ => allowed⟩

/-- Three arguments: one branch of the source after the other. -/
theorem ethSetKey_meets_iff (b : Board) (command key value : List Char) :
    CallMeets b (specified b.paramNet [command, key, value]) (ethSetKey b.paramNet key value) ↔
      Faithful b.paramNet key value := by
  unfold specified ethSetKey
  dsimp only
  by_cases ip : key = "ip".toList
  · rw [if_pos ip, if_pos ip, faithful_address_iff (.inl ip)]
    exact meets_address_iff b value _
  by_cases gw : key = "gw".toList
  · rw [if_neg ip, if_neg ip, if_pos gw, if_pos gw, faithful_address_iff (.inr (.inl gw))]
    exact meets_address_iff b value _
  by_cases nm : key = "nm".toList
  · rw [if_neg ip, if_neg ip, if_neg gw, if_neg gw, if_pos nm, if_pos nm,
      faithful_address_iff (.inr (.inr (.inl nm)))]
    exact meets_address_iff b value _
  rw [if_neg ip, if_neg ip, if_neg gw, if_neg gw, if_neg nm, if_neg nm]
  by_cases port : key = "port".toList
  · have rip : key ≠ "rip".toList := by
      rw [port]
      decide
    rw [if_neg rip, if_pos port, if_pos port, faithful_port_iff port]
    exact meets_port_iff b value
  by_cases rip : key = "rip".toList
  · rw [if_pos rip, if_neg port, if_pos rip, faithful_address_iff (.inr (.inr (.inr rip)))]
    exact meets_address_iff b value _
  rw [if_neg rip, if_neg port, if_neg port, if_neg rip]
  by_cases rport : key = "rport".toList
  · rw [if_pos rport, if_pos rport, faithful_rport_iff rport]
    exact meets_rport_iff b value
  rw [if_neg rport, if_neg rport]
  have faithful : Faithful b.paramNet key value :=
    ⟨by rintro (same | same | same | same) <;> contradiction, fun same => absurd same port,
      fun same => absurd same rport⟩
  refine iff_of_true ?_ faithful
  split
  · split
    · rfl
    · split
      · rfl
      · exact meets_none_none b
  · exact meets_none_none b

end

/-- For every argument vector and every state of the board, the command does
what is specified exactly in these cases: any number of arguments but three; an
address of at most fifteen characters; a local port of the range, or a value
that is not specified and is cut to zero or to the port at hand; a remote port
of sixteen bits, or a value cut to the port at hand; and every other key. -/
theorem ethSet_asSpecified_iff (b : Board) (argv : List (List Char)) :
    AsSpecified b argv ↔
      ∀ command key value, argv = [command, key, value] → Faithful b.paramNet key value := by
  by_cases three : ∃ command key value, argv = [command, key, value]
  · obtain ⟨command, key, value, rfl⟩ := three
    have meets := ethSetKey_meets_iff b command key value
    constructor
    · rintro specified _ _ _ ⟨⟩
      exact meets.mp specified
    · intro faithful
      exact meets.mpr (faithful command key value rfl)
  · refine iff_of_true ?_ fun command key value same => absurd ⟨command, key, value, same⟩ three
    have nothing : specified b.paramNet argv = none ∧ ethSetCall b.paramNet argv = some none := by
      unfold specified ethSetCall
      constructor
      · split
        · exact absurd ⟨_, _, _, rfl⟩ three
        · rfl
      · split
        · exact absurd ⟨_, _, _, rfl⟩ three
        · rfl
    rw [asSpecified_iff_callMeets, nothing.1, nothing.2]
    exact meets_none_none b

/-- The usage text promises zero for a port the system chooses, and the command
refuses it; port 80 is out of range and taken; a remote port of 65537 becomes 1;
and an address of sixteen characters is copied past its buffer. -/
theorem ethSet_departs :
    ¬ AsSpecified (boardWith ethnetIfName) ["eth_set".toList, "port".toList, "0".toList] ∧
      ¬ AsSpecified (boardWith ethnetIfName) ["eth_set".toList, "port".toList, "80".toList] ∧
      ¬ AsSpecified (boardWith ethnetIfName) ["eth_set".toList, "rport".toList, "65537".toList] ∧
      ¬ AsSpecified (boardWith ethnetIfName)
        ["eth_set".toList, "ip".toList, "192.168.008.0030".toList] := by
  have zero : specified (boardWith ethnetIfName).paramNet
      ["eth_set".toList, "port".toList, "0".toList] =
        some { (boardWith ethnetIfName).paramNet with localPort := 0 } ∧
      ethSetCall (boardWith ethnetIfName).paramNet
        ["eth_set".toList, "port".toList, "0".toList] = some none := by decide
  have low : specified (boardWith ethnetIfName).paramNet
      ["eth_set".toList, "port".toList, "80".toList] = none ∧
      ethSetCall (boardWith ethnetIfName).paramNet
        ["eth_set".toList, "port".toList, "80".toList] =
          some (some { (boardWith ethnetIfName).paramNet with localPort := 80 }) := by decide
  have wide : specified (boardWith ethnetIfName).paramNet
      ["eth_set".toList, "rport".toList, "65537".toList] = none ∧
      ethSetCall (boardWith ethnetIfName).paramNet
        ["eth_set".toList, "rport".toList, "65537".toList] =
          some (some { (boardWith ethnetIfName).paramNet with servicePort := 1 }) := by decide
  have long : specified (boardWith ethnetIfName).paramNet
      ["eth_set".toList, "ip".toList, "192.168.008.0030".toList] = none ∧
      ethSetCall (boardWith ethnetIfName).paramNet
        ["eth_set".toList, "ip".toList, "192.168.008.0030".toList] = none := by decide
  refine ⟨?_, ?_, ?_, ?_⟩
  · rw [asSpecified_iff_callMeets, zero.1, zero.2]
    intro meets
    cases meets
  · rw [asSpecified_iff_callMeets, low.1, low.2, meets_none_call_iff]
    decide
  · rw [asSpecified_iff_callMeets, wide.1, wide.2, meets_none_call_iff]
    decide
  · rw [asSpecified_iff_callMeets, long.1, long.2]
    exact not_meets_overrun _

end RttIctl.Applications
