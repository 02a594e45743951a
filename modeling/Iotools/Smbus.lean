import Iotools.Commands
import Iotools.I2cDev

namespace Iotools
open Bytes Numeral Interaction

-- setup a file descriptor for i2c slave access
def openI2cSlave (i2cBus slaveAddress : UInt8) : Action Int := do
  let fd ← ask (.open ("/dev/i2c-".toList ++ decimal i2cBus.toNat) ⟨.rdwr,false⟩)
  if fd < 0 then do
    complain .i2cOpen
    return -1
  else do
    if (← ask (.ioctlSlave fd false slaveAddress)) < 0 then do
      complain (.i2cAttach i2cBus slaveAddress)
      ask (.close fd)
      return -1
    else return fd

def isTrailingJunk (arg rest : Text) : Parse Unit :=
  if rest ≠ [] then .error (.complain (.trailingJunk arg)) else .ok ()

-- `ldata` is narrowed to unsigned long by the call.
def isMaxOrTrailingJunk (b : Build) (arg rest : Text) (ldata : Nat) : Parse Unit :=
  if ldata % 2 ^ b.long.bits = longMax b then .error (.complain (.isLongMax arg)) else isTrailingJunk arg rest

def parseUint8Base (b : Build) (arg : Text) (base : Nat) : Parse UInt8 := do
  let ldata := strtoulLong b base arg
  isMaxOrTrailingJunk b arg ldata.2 ldata.1
  if 0xff < ldata.1 then .error (.complain (.notAByte arg)) else .ok (UInt8.ofNat ldata.1)

def parseUint8 (b : Build) (arg : Text) : Parse UInt8 := parseUint8Base b arg 0
def parseUint8Hex (b : Build) (arg : Text) : Parse UInt8 := parseUint8Base b arg 16

-- The fields u8, u16, u32 and u64 of the union, as `size` bytes in host order.
def SmbusDtype.setFixed (b : Build) (data : SmbusDtype) (size value : Nat) : SmbusDtype :=
  data.patch 0 (encode b.order size value)
def SmbusDtype.fixed (b : Build) (data : SmbusDtype) (size : Nat) : Nat :=
  decode b.order (data.slice 0 size)

-- The loop over nibble pairs. The text is what lies before the NUL, so its end
-- is the test of the loop; advancing by two over a single character would
-- leave the string.
def parsePairs (b : Build) : Text → Nat → SmbusDtype → Parse SmbusDtype
  | [],_,array => .ok array
  | [c],_,_ => do
    let _ ← parseUint8Hex b [c]
    .error (.fault .pastNul)
  | first :: second :: src,dest,array => do
    let byte ← parseUint8Hex b [first,second]
    if dest < 34 then parsePairs b src (dest + 1) (array.patch dest [byte])
    else .error (.fault .arrayIndex)

-- The optional prefix of a block operand: where the pairs start, and the length
-- that is left.
def stripPrefix (arg : Text) (len : Int) : Text × Int :=
  match arg with
  | '0' :: x :: src => if x = 'x' ∨ x = 'X' then (src,len - 2) else (arg,len)
  | _ => (arg,len)

def parseBlock (b : Build) (arg : Text) (params : SmbusOpParams) : Parse SmbusOpParams :=
  let len := toInt arg.length
  if len ≤ 0 ∨ len % 2 ≠ 0 then .error (.complain (.dataLength len))
  else
    let (src,len) := stripPrefix arg len
    if len / 2 > blockMax then .error (.complain .dataTooLong)
    else do
      let array ← parsePairs b src 0 params.data
      .ok {params with data := array,len := len / 2}

def parseIoWidth (b : Build) (arg : Text) (params : SmbusOpParams) (size : SmbusSize) : Parse SmbusOpParams :=
  let params := {params with data := Buffer.zero}
  match size with
  | .quick => do
    let ldata := strtoulLong b 0 arg
    isMaxOrTrailingJunk b arg ldata.2 ldata.1
    if ldata.1 ≠ 0 ∧ ldata.1 ≠ 1 then .error (.complain (.notZeroOrOne arg))
    else .ok {params with data := SmbusDtype.setFixed b params.data 1 ldata.1}
  | .byte | .size8 => do
    let ldata := strtoulLong b 0 arg
    isMaxOrTrailingJunk b arg ldata.2 ldata.1
    .ok {params with data := SmbusDtype.setFixed b params.data 1 ldata.1}
  | .size16 | .procCall => do
    let ldata := strtoulLong b 0 arg
    isMaxOrTrailingJunk b arg ldata.2 ldata.1
    .ok {params with data := SmbusDtype.setFixed b params.data 2 ldata.1}
  | .size32 => do
    let ldata := strtoulLong b 0 arg
    isTrailingJunk arg ldata.2
    .ok {params with data := SmbusDtype.setFixed b params.data 4 ldata.1}
  | .size64 => do
    let ldata := strtoull 0 arg
    isTrailingJunk arg ldata.2
    .ok {params with data := SmbusDtype.setFixed b params.data 8 ldata.1}
  | .block | .blockProcCall | .writeRead => parseBlock b arg params

-- print out the data read; `none` where the switch has no case.
def readText (b : Build) (size : SmbusSize) (readBlockSize : Int) (data : SmbusDtype) : Option Text :=
  match size with
  | .byte | .size8 => some ("0x".toList ++ hexUpper 2 (SmbusDtype.fixed b data 1) ++ "\n".toList)
  | .size16 => some ("0x".toList ++ hexUpper 4 (SmbusDtype.fixed b data 2) ++ "\n".toList)
  | .size32 => some ("0x".toList ++ hexUpper 8 (SmbusDtype.fixed b data 4) ++ "\n".toList)
  | .size64 => some ("0x".toList ++ hexUpper 16 (SmbusDtype.fixed b data 8) ++ "\n".toList)
  | .block =>
    let count := if readBlockSize > blockMax then (blockMax : Int) else readBlockSize
    some ((data.slice 0 count.toNat).flatMap (fun byte => hexUpper 2 byte.toNat) ++ "\n".toList)
  | _ => none

def printReadData (b : Build) (size : SmbusSize) (readBlockSize : Int) (data : SmbusDtype) : Action Unit :=
  match readText b size readBlockSize data with
  | some text => ask (.stdout text)
  | none => return ()

-- Only obtain the register if size designates that it is not a byte or quick
-- operation.
def SmbusSize.hasRegister (size : SmbusSize) : Bool :=
  size ≠ .byte && size ≠ .quick && size ≠ .writeRead

def smbusPrologue (b : Build) (argv : List Arg) (params : SmbusOpParams) (op : SmbusOp) :
    Action (Option SmbusOpParams) := do
  match ← report (parseUint8 b (← argAt argv 1)) with
  | none => do
    ask (.stderr .invalidAdapter)
    return none
  | some i2cBus => do
    match ← report (parseUint8 b (← argAt argv 2)) with
    | none => do
      ask (.stderr .invalidAddress)
      return none
    | some address => do
      let reg ← if op.size.hasRegister then do
          report (parseUint8 b (← argAt argv 3))
        else pure (some params.reg)
      match reg with
      | none => do
        ask (.stderr .invalidRegister)
        return none
      | some reg => do
        let fd ← openI2cSlave i2cBus address
        if fd < 0 then do
          ask (.stderr .openSlave)
          return none
        else return some {params with i2cBus := i2cBus,address := address,reg := reg,fd := fd}

-- The switch of smbus_read_op: the result and the union afterwards.
def readTransfer (b : Build) (params : SmbusOpParams) (size : SmbusSize) : Action (Option (Int × SmbusDtype)) := do
  let data : SmbusDtype := Buffer.zero
  match size with
  | .size8 => do
    let result ← i2cSmbusReadByteData params.fd params.reg
    return some (result,SmbusDtype.setFixed b data 1 (toUnsigned result))
  | .size16 => do
    let result ← i2cSmbusReadWordData b params.fd params.reg
    return some (result,SmbusDtype.setFixed b data 2 (toUnsigned result))
  | .size32 => do
    let reply ← i2cSmbusReadI2cBlockData params.fd params.reg 4 data
    return some (if reply.1 ≠ 4 then -1 else reply.1,reply.2)
  | .size64 => do
    let reply ← i2cSmbusReadI2cBlockData params.fd params.reg 8 data
    return some (if reply.1 ≠ 8 then -1 else reply.1,reply.2)
  | .block => do
    let reply ← i2cSmbusReadBlockData params.fd params.reg data
    return some reply
  | .byte => do
    let result ← i2cSmbusReadByte params.fd
    return some (result,SmbusDtype.setFixed b data 1 (toUnsigned result))
  | _ => return none

def smbusReadOp (b : Build) (params : SmbusOpParams) (op : SmbusOp) : Action Int := do
  match ← readTransfer b params op.size with
  | none => do
    ask (.stderr .illegalReadSize)
    return -1
  | some (result,data) => do
    if result < 0 then do
      if op.size ≠ .byte then complain (.readRegister params.reg)
      else complain (.readDevice params.address)
      return -1
    else do
      printReadData b op.size result data
      return 0

-- The switch of smbus_write_op.
def writeTransfer (b : Build) (params : SmbusOpParams) (size : SmbusSize) : Action (Option Int) := do
  match size with
  | .size8 => do
    let result ← i2cSmbusWriteByteData params.fd params.reg (UInt8.ofNat (SmbusDtype.fixed b params.data 1))
    return some result
  | .size16 => do
    let result ← i2cSmbusWriteWordData b params.fd params.reg (SmbusDtype.fixed b params.data 2)
    return some result
  | .size32 => do
    let result ← i2cSmbusWriteI2cBlockData params.fd params.reg 4 params.data
    return some result
  | .size64 => do
    let result ← i2cSmbusWriteI2cBlockData params.fd params.reg 8 params.data
    return some result
  | .block => do
    let result ← i2cSmbusWriteBlockData params.fd params.reg (UInt8.ofNat (toUnsigned params.len)) params.data
    return some result
  | .byte => do
    let result ← i2cSmbusWriteByte params.fd (UInt8.ofNat (SmbusDtype.fixed b params.data 1))
    return some result
  | .quick => do
    let result ← i2cSmbusWriteQuick params.fd (UInt8.ofNat (SmbusDtype.fixed b params.data 1))
    return some result
  | _ => return none

-- ioctl(params->fd, I2C_SLAVE_FORCE, ...); true when it succeeded.
def forceSlave (params : SmbusOpParams) : Action Bool := do
  if (← ask (.ioctlSlave params.fd true params.address)) < 0 then do
    complain (.setAddress params.address)
    return false
  else return true

def smbusWriteOp (b : Build) (params : SmbusOpParams) (op : SmbusOp) : Action Int := do
  if ← forceSlave params then do
    match ← writeTransfer b params op.size with
    | none => do
      ask (.stderr .illegalWriteSize)
      return -1
    | some result => do
      if result < 0 then do
        if op.size ≠ .byte ∧ op.size ≠ .quick then complain (.writeRegister params.reg)
        else complain (.writeDevice params.address)
        return -1
      else return 0
  else return -1

def smbusProcessCallOp (b : Build) (params : SmbusOpParams) : Action Int := do
  if ← forceSlave params then do
    let result ← i2cSmbusProcessCall b params.fd params.reg (SmbusDtype.fixed b params.data 2)
    if result < 0 then do
      complain .processCall
      return -1
    else do
      -- `result` is not stored: the union still holds the operand
      printReadData b .size16 0 params.data
      return 0
  else return -1

def smbusBlockProcessCallOp (b : Build) (params : SmbusOpParams) : Action Int := do
  if ← forceSlave params then do
    let reply ← i2cSmbusBlockProcessCall params.fd params.reg (UInt8.ofNat (toUnsigned params.len)) params.data
    if reply.1 < 0 then do
      complain .processCall
      return -1
    else do
      printReadData b .block reply.1 reply.2
      return 0
  else return -1

-- Both messages name params->data.array as their buffer.
def smbusWritereadOp (b : Build) (params : SmbusOpParams) : Action Int := do
  let write : I2cMsg := ⟨params.address,false,params.len.toNat,params.data.slice 0 params.len.toNat⟩
  let read : I2cMsg := ⟨params.address,true,params.readCount.toNat,params.data.slice 0 params.readCount.toNat⟩
  let reply ← ask (.ioctlRdwr params.fd write read)
  if reply.1 < 0 then do
    complain .i2cRdwr
    return -1
  else do
    printReadData b .block params.readCount.toNat (params.data.patch 0 (reply.2.take params.readCount.toNat))
    return 0

def performOp (b : Build) (params : SmbusOpParams) (op : SmbusOp) : Action Int :=
  match op.performOp with
  | .read => smbusReadOp b params op
  | .write => smbusWriteOp b params op
  | .processCall => smbusProcessCallOp b params
  | .blockProcessCall => smbusBlockProcessCallOp b params
  | .writeread => smbusWritereadOp b params

def smbusRead (b : Build) (argv : List Arg) (info : CmdInfo) : Action Int := do
  let params ← ask .staleParams
  let op ← smbusOpOf info
  match ← smbusPrologue b argv params op with
  | none => return -1
  | some params => do
    let ret ← performOp b params op
    ask (.close params.fd)
    return ret

-- The shared end of smbus_write and smbus_process_call: parse the operand at
-- argv[index], then perform the operation.
def operandThenOp (b : Build) (argv : List Arg) (params : SmbusOpParams) (op : SmbusOp) (index : Nat) :
    Action Int := do
  match ← report (parseIoWidth b (← argAt argv index) params op.size) with
  | none => do
    ask (.stderr (.invalidValue (← argAt argv 0) (← argAt argv index)))
    ask (.close params.fd)
    return -1
  | some params => do
    let ret ← performOp b params op
    ask (.close params.fd)
    return ret

def smbusWrite (b : Build) (argv : List Arg) (info : CmdInfo) : Action Int := do
  let params ← ask .staleParams
  let op ← smbusOpOf info
  match ← smbusPrologue b argv params op with
  | none => return -1
  | some params => operandThenOp b argv params op (if op.size = .byte ∨ op.size = .quick then 3 else 4)

def smbusProcessCall (b : Build) (argv : List Arg) (info : CmdInfo) : Action Int := do
  let params ← ask .staleParams
  let op ← smbusOpOf info
  match ← smbusPrologue b argv params op with
  | none => return -1
  | some params => operandThenOp b argv params op 4

-- memset(&params, 0, sizeof(params))
def SmbusOpParams.zero : SmbusOpParams := ⟨0,0,0,0,0,0,Buffer.zero⟩

def smbusWriteread (b : Build) (argv : List Arg) (info : CmdInfo) : Action Int := do
  let op ← smbusOpOf info
  match ← smbusPrologue b argv .zero op with
  | none => return -1
  | some params => do
    match ← report (parseIoWidth b (← argAt argv 3) params op.size) with
    | none => do
      ask (.stderr (.invalidValue (← argAt argv 0) (← argAt argv 3)))
      ask (.close params.fd)
      return -1
    | some params => do
      match ← report (parseUint8 b (← argAt argv 4)) with
      | none => do
        ask (.stderr (.invalidReadCount (← argAt argv 4)))
        return -1
      | some readCount => do
        let params := {params with readCount := readCount}
        if blockMax < readCount.toNat then do
          -- the report names argv[3], not the count
          ask (.stderr (.readCountTooBig (← argAt argv 3)))
          return -1
        else do
          let ret ← performOp b params op
          ask (.close params.fd)
          return ret

end Iotools
