import RttIctl.Bsp.NetCfg

/-!
Owns the ADS111x driver as the sampling thread uses it: `ads111x_config` and
`ads111x_readAD` over I2C transfers whose outcome the bus decides.

It does not own the conversion of a reading to a voltage or the thresholds.
-/

namespace RttIctl.Bsp

/-! ### The bus -/

/-- `RT_I2C_WR` and `RT_I2C_RD`. -/
inductive I2cFlags
  | wr
  | rd
  deriving DecidableEq, Repr

/-- `struct ad111x_device`, without the bus it is on. -/
structure Ad111xDevice where
  addrInput : BitVec 8
  deriving DecidableEq, Repr

/-- What `rt_i2c_master_send` leaves: the number it returns and the buffer. -/
structure I2cOutcome where
  ret : UInt32
  buf : Nat → BitVec 8

/-- The bus during one pass of the thread: the outcome of a transfer to an
address, with its flags and the bytes in the buffer. -/
abbrev I2cBus := BitVec 8 → I2cFlags → List (BitVec 8) → I2cOutcome

/-! ### Register values -/

def ads111xDataReg : BitVec 8 := 0x00
def ads111xConfReg : BitVec 8 := 0x01

def adsOsBegin : BitVec 8 := 0x80
def adsMux03 : BitVec 8 := 0x10
def adsMux13 : BitVec 8 := 0x20
def adsMux23 : BitVec 8 := 0x30
def adsPga4096V : BitVec 8 := 0x02
def adsModContinuous : BitVec 8 := 0x00
def adsSpd128Sps : BitVec 8 := 0x80
def adsQueDisable : BitVec 8 := 0x03

/-! ### The driver -/

def ads111xConfig (bus : I2cBus) (dev : Option Ad111xDevice) (lcmd hcmd : BitVec 8) : RtErr :=
  match dev with
  | none => .error
  | some dev =>
      if 3 ≠ (bus dev.addrInput .wr [ads111xConfReg, hcmd, lcmd]).ret then .error else .eok

/-- `two_complement` of a 16-bit number. -/
def twoComplement16 (n : BitVec 16) : BitVec 16 :=
  let wide := n.signExtend 32
  if wide &&& (1#32 <<< 15) ≠ 0 then (wide ||| ~~~((1#32 <<< 16) - 1#32)).setWidth 16 else n

/-- The two bytes as one number, high byte first. -/
def adsWord (high low : BitVec 8) : BitVec 16 :=
  ((high.setWidth 32 <<< 8) ||| low.setWidth 32).setWidth 16

/-- The device is used with no test of it: no result means a null device. A
failed transfer gives 0. -/
def ads111xReadAD (bus : I2cBus) (dev : Option Ad111xDevice) : Option (BitVec 16) := do
  let dev ← dev
  if 1 ≠ (bus dev.addrInput .wr [ads111xDataReg]).ret then some 0
  else
    let fetched := bus dev.addrInput .rd [0, 0]
    if 2 ≠ fetched.ret then some 0
    else some (twoComplement16 (adsWord (fetched.buf 0) (fetched.buf 1)))

end RttIctl.Bsp
