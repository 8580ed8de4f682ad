import RttIctl.Lib.LittleEndian

/-!
Owns `netdev_ip4addr_aton`, the reader of dotted addresses, and the record
`rt_netparam` with its image in memory on a little-endian processor.

A C string is the list of its characters without the terminator; an address is
the word that `ip4_addr_t` holds, in network order. It does not own the
interfaces that the record configures.
-/

namespace RttIctl.Netdev

open Lib.LittleEndian

/-! ### Addresses -/

def isXdigit (c : Char) : Bool :=
  c.isDigit || ('a' ≤ c && c ≤ 'f') || ('A' ≤ c && c ≤ 'F')

def isSpace (c : Char) : Bool := c = ' ' || ('\t' ≤ c && c ≤ '\r')

/-- `c + 10 - (islower(c) ? 'a' : 'A')`. -/
def hexDigit (c : Char) : UInt32 := c.val + 10 - (if c.isLower then 'a'.val else 'A'.val)

/-- The inner loop: the digits of one part, and what follows them. -/
def collectDigits (base val : UInt32) : List Char → UInt32 × List Char
  | [] => (val, [])
  | c :: cp =>
      if c.isDigit then collectDigits base (val * base + (c.val - '0'.val)) cp
      else if base = 16 && isXdigit c then collectDigits base (val <<< 4 ||| hexDigit c) cp
      else (val, c :: cp)

/-- One part, in the base its prefix selects. -/
def collectNumber (cp : List Char) : Option (UInt32 × List Char) :=
  match cp with
  | [] => none
  | c :: rest =>
      if !c.isDigit then none
      else if c = '0' then
        match rest with
        | 'x' :: digits => some (collectDigits 16 0 digits)
        | 'X' :: digits => some (collectDigits 16 0 digits)
        | _ => some (collectDigits 8 0 rest)
      else some (collectDigits 10 0 cp)

/-- The outer loop: the parts before the last one, the last one, and what
follows. `free` is the room left in `parts`. -/
def collectParts (parts : List UInt32) (cp : List Char) :
    Nat → Option (List UInt32 × UInt32 × List Char)
  | 0 =>
      match collectNumber cp with
      | none => none
      | some (_, '.' :: _) => none
      | some (val, rest) => some (parts, val, rest)
  | free + 1 =>
      match collectNumber cp with
      | none => none
      | some (val, '.' :: rest) => collectParts (parts ++ [val]) rest free
      | some (val, rest) => some (parts, val, rest)

/-- The address of the number of parts given: a, a.b, a.b.c or a.b.c.d. -/
def concoct : List UInt32 → UInt32 → Option UInt32
  | [], val => some val
  | [a], val =>
      if 0xffffff < val || 0xff < a then none
      else some (val ||| a <<< 24)
  | [a, b], val =>
      if 0xffff < val || 0xff < a || 0xff < b then none
      else some (val ||| (a <<< 24 ||| b <<< 16))
  | [a, b, c], val =>
      if 0xff < val || 0xff < a || 0xff < b || 0xff < c then none
      else some (val ||| (a <<< 24 ||| b <<< 16 ||| c <<< 8))
  | _, _ => none

def htonl (val : UInt32) : UInt32 :=
  ((val &&& 0xff) <<< 24) ||| ((val &&& 0xff00) <<< 8) ||| ((val &&& 0xff0000) >>> 8) |||
    ((val &&& 0xff000000) >>> 24)

/-- `none` is the result 0, with `*addr` untouched. -/
def netdevIp4addrAton (cp : List Char) : Option UInt32 :=
  match collectParts [] cp 3 with
  | none => none
  | some (parts, val, rest) =>
      match rest with
      | [] => (concoct parts val).map htonl
      | c :: _ => if isSpace c then (concoct parts val).map htonl else none

example : netdevIp4addrAton "192.168.8.30".toList = some 0x1E08A8C0 := by decide

example : netdevIp4addrAton "10.0x1F.07 eth0".toList = some 0x07001F0A := by decide

example : netdevIp4addrAton "192.168.8.256".toList = none := by decide

/-! ### The record of network parameters -/

/-- `struct rt_netparam`, with the two bytes the compiler leaves between its
members and at its end. -/
structure NetParam where
  ipAddr : UInt32
  gwAddr : UInt32
  nmAddr : UInt32
  tcpOrUdp : UInt8
  gap : UInt8
  localPort : UInt16
  serviceIp : UInt32
  servicePort : UInt16
  state : UInt8
  tail : UInt8
deriving DecidableEq, Repr

namespace NetParam

/-- `sizeof(rt_netparam)`. -/
def size : Nat := 24

def image (p : NetParam) : List UInt8 :=
  bytesOf 4 p.ipAddr.toNat ++ (bytesOf 4 p.gwAddr.toNat ++ (bytesOf 4 p.nmAddr.toNat ++
    (bytesOf 1 p.tcpOrUdp.toNat ++ (bytesOf 1 p.gap.toNat ++ (bytesOf 2 p.localPort.toNat ++
      (bytesOf 4 p.serviceIp.toNat ++ (bytesOf 2 p.servicePort.toNat ++
        (bytesOf 1 p.state.toNat ++ bytesOf 1 p.tail.toNat))))))))

/-- The record whose memory holds the bytes. -/
def ofImage (image : List UInt8) : NetParam where
  ipAddr := UInt32.ofNat (field image 0 4)
  gwAddr := UInt32.ofNat (field image 4 4)
  nmAddr := UInt32.ofNat (field image 8 4)
  tcpOrUdp := UInt8.ofNat (field image 12 1)
  gap := UInt8.ofNat (field image 13 1)
  localPort := UInt16.ofNat (field image 14 2)
  serviceIp := UInt32.ofNat (field image 16 4)
  servicePort := UInt16.ofNat (field image 20 2)
  state := UInt8.ofNat (field image 22 1)
  tail := UInt8.ofNat (field image 23 1)

theorem length_image (p : NetParam) : p.image.length = size := by
  simp [image, size]

theorem ofImage_image (p : NetParam) : ofImage p.image = p := by
  have word (w : UInt32) (back : List UInt8) : field (bytesOf 4 w.toNat ++ back) 0 4 = w.toNat :=
    field_bytesOf_append back w.toNat_lt
  have half (w : UInt16) (back : List UInt8) : field (bytesOf 2 w.toNat ++ back) 0 2 = w.toNat :=
    field_bytesOf_append back w.toNat_lt
  have byte (w : UInt8) (back : List UInt8) : field (bytesOf 1 w.toNat ++ back) 0 1 = w.toNat :=
    field_bytesOf_append back w.toNat_lt
  have last (w : UInt8) : field (bytesOf 1 w.toNat) 0 1 = w.toNat := field_bytesOf w.toNat_lt
  simp [ofImage, image, field_append_right, word, half, byte, last]

end NetParam

end RttIctl.Netdev
