import Iotools.Sys

namespace Iotools
open Bytes Numeral Interaction

-- The inline functions of linux-i2c-dev.h. Each starts from a union with stale
-- content; `byte`, `word` and `block` overlay its first bytes.
def i2cSmbusRead : UInt8 := 1
def i2cSmbusWrite : UInt8 := 0

def I2cSmbusData.word (b : Build) (data : I2cSmbusData) : Nat := decode b.order (data.slice 0 2)

def i2cSmbusAccess (file : Int) (readWrite command : UInt8) (size : Transaction)
    (data : Option I2cSmbusData) : Action (Int × I2cSmbusData) :=
  ask (.ioctlSmbus file ⟨readWrite,command,size,data⟩)

def i2cSmbusWriteQuick (file : Int) (value : UInt8) : Action Int := do
  let reply ← i2cSmbusAccess file value 0 .quick none
  return reply.1

def i2cSmbusReadByte (file : Int) : Action Int := do
  let data ← ask (.stale 35)
  let reply ← i2cSmbusAccess file i2cSmbusRead 0 .byte (some data)
  if reply.1 ≠ 0 then return -1 else return (reply.2 0).toNat

def i2cSmbusWriteByte (file : Int) (value : UInt8) : Action Int := do
  let reply ← i2cSmbusAccess file i2cSmbusWrite value .byte none
  return reply.1

def i2cSmbusReadByteData (file : Int) (command : UInt8) : Action Int := do
  let data ← ask (.stale 35)
  let reply ← i2cSmbusAccess file i2cSmbusRead command .byteData (some data)
  if reply.1 ≠ 0 then return -1 else return (reply.2 0).toNat

def i2cSmbusWriteByteData (file : Int) (command value : UInt8) : Action Int := do
  let data ← ask (.stale 35)
  let reply ← i2cSmbusAccess file i2cSmbusWrite command .byteData (some (data.patch 0 [value]))
  return reply.1

def i2cSmbusReadWordData (b : Build) (file : Int) (command : UInt8) : Action Int := do
  let data ← ask (.stale 35)
  let reply ← i2cSmbusAccess file i2cSmbusRead command .wordData (some data)
  if reply.1 ≠ 0 then return -1 else return I2cSmbusData.word b reply.2

def i2cSmbusWriteWordData (b : Build) (file : Int) (command : UInt8) (value : Nat) : Action Int := do
  let data ← ask (.stale 35)
  let reply ← i2cSmbusAccess file i2cSmbusWrite command .wordData (some (data.patch 0 (encode b.order 2 value)))
  return reply.1

def i2cSmbusProcessCall (b : Build) (file : Int) (command : UInt8) (value : Nat) : Action Int := do
  let data ← ask (.stale 35)
  let reply ← i2cSmbusAccess file i2cSmbusWrite command .procCall (some (data.patch 0 (encode b.order 2 value)))
  if reply.1 ≠ 0 then return -1 else return I2cSmbusData.word b reply.2

-- The loop `for (i = 1; i <= data.block[0]; i++) values[i-1] = data.block[i]`.
-- Both arrays are left when the count exceeds 34.
def copyBlock (data : I2cSmbusData) (values : SmbusDtype) : Action SmbusDtype :=
  if 34 < (data 0).toNat then .fault .arrayIndex
  else return values.patch 0 (data.slice 1 (data 0).toNat)

-- The clamp to 32 and the loop that fills `block` before a transfer.
def fillBlock (data : I2cSmbusData) (length : UInt8) (values : SmbusDtype) : I2cSmbusData :=
  let count : UInt8 := if 32 < length then 32 else length
  (data.patch 1 (values.slice 0 count.toNat)).patch 0 [count]

-- Returns the number of read bytes, and the values after the copy.
def i2cSmbusReadBlockData (file : Int) (command : UInt8) (values : SmbusDtype) : Action (Int × SmbusDtype) := do
  let data ← ask (.stale 35)
  let reply ← i2cSmbusAccess file i2cSmbusRead command .blockData (some data)
  if reply.1 ≠ 0 then return (-1,values)
  else do
    let copied ← copyBlock reply.2 values
    return ((reply.2 0).toNat,copied)

def i2cSmbusWriteBlockData (file : Int) (command length : UInt8) (values : SmbusDtype) : Action Int := do
  let data ← ask (.stale 35)
  let reply ← i2cSmbusAccess file i2cSmbusWrite command .blockData (some (fillBlock data length values))
  return reply.1

def i2cSmbusReadI2cBlockData (file : Int) (command length : UInt8) (values : SmbusDtype) :
    Action (Int × SmbusDtype) := do
  let data ← ask (.stale 35)
  let count : UInt8 := if 32 < length then 32 else length
  let reply ← i2cSmbusAccess file i2cSmbusRead command .i2cBlockData (some (data.patch 0 [count]))
  if reply.1 ≠ 0 then return (-1,values)
  else do
    let copied ← copyBlock reply.2 values
    return ((reply.2 0).toNat,copied)

def i2cSmbusWriteI2cBlockData (file : Int) (command length : UInt8) (values : SmbusDtype) : Action Int := do
  let data ← ask (.stale 35)
  let reply ← i2cSmbusAccess file i2cSmbusWrite command .i2cBlockData (some (fillBlock data length values))
  return reply.1

def i2cSmbusBlockProcessCall (file : Int) (command length : UInt8) (values : SmbusDtype) :
    Action (Int × SmbusDtype) := do
  let data ← ask (.stale 35)
  let reply ← i2cSmbusAccess file i2cSmbusWrite command .blockProcCall (some (fillBlock data length values))
  if reply.1 ≠ 0 then return (-1,values)
  else do
    let copied ← copyBlock reply.2 values
    return ((reply.2 0).toNat,copied)

end Iotools
