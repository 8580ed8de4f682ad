import RttIctl.Netdev.Ipaddr

/-!
Owns `setCurNetCfg`, which installs the addresses of `g_paramNet` in a network
interface, and the search for the interface.

It does not own the connection: closing and reopening it around the change
touches neither the parameters nor the interfaces.
-/

namespace RttIctl.Bsp

open Netdev

inductive RtErr where
  | eok
  | error
  | eempty
deriving DecidableEq, Repr

/-- What the setters use of `struct netdev`. `setAddrInfo` says that the
interface has that operation, `dhcp` that its DHCP is enabled. -/
structure NetIf where
  name : List Char
  setAddrInfo : Bool
  dhcp : Bool
  ipAddr : UInt32
  gw : UInt32
  netmask : UInt32
deriving DecidableEq, Repr

/-- The common body of `netdev_set_ipaddr`, `netdev_set_gw` and
`netdev_set_netmask`. -/
def NetIf.setAddr (netdev : NetIf) (changed : NetIf) : NetIf :=
  if !netdev.setAddrInfo then netdev
  else if netdev.dhcp then netdev
  else changed

def netdevSetIpaddr (netdev : NetIf) (addr : UInt32) : NetIf :=
  netdev.setAddr { netdev with ipAddr := addr }

def netdevSetGw (netdev : NetIf) (addr : UInt32) : NetIf :=
  netdev.setAddr { netdev with gw := addr }

def netdevSetNetmask (netdev : NetIf) (addr : UInt32) : NetIf :=
  netdev.setAddr { netdev with netmask := addr }

/-- `ETHNET_IF_NAME`. -/
def ethnetIfName : List Char := ['e', '0']

/-- The search loop. Its cursor is the variable tested afterwards, so that on a
list without the name it stays at the last interface. -/
def searchNetdev : List NetIf → Option Nat
  | [] => none
  | netdev :: rest =>
      if netdev.name = ethnetIfName then some 0
      else match searchNetdev rest with
        | none => some 0
        | some position => some (position + 1)

def applyNetParam (paramNet : NetParam) (netdev : NetIf) : NetIf :=
  netdevSetNetmask (netdevSetGw (netdevSetIpaddr netdev paramNet.ipAddr) paramNet.gwAddr)
    paramNet.nmAddr

/-- `pDev` is a position in the list of interfaces, `none` for `RT_NULL`. -/
def setCurNetCfg (paramNet : NetParam) (netdevs : List NetIf) (pDev : Option Nat) :
    RtErr × List NetIf :=
  match pDev.orElse fun _ => searchNetdev netdevs with
  | none => (.error, netdevs)
  | some position => (.eok, netdevs.modify position (applyNetParam paramNet))

end RttIctl.Bsp
