import Iotools.Commands

namespace Iotools
open Bytes Numeral Interaction

structure MmapInfo where
  fd : Int
  mem : Nat
  off : Int
  length : Nat
  addr : Nat
  deriving DecidableEq

def OpenFlags.prot (flags : OpenFlags) : Prot :=
  match flags.mode with
  | .rdwr => ⟨true,true⟩
  | .rdonly => ⟨true,false⟩
  | .wronly => ⟨false,true⟩

-- mmap_addr->addr & (pgsize - 1), narrowed to int, and addr & ~(pgsize - 1).
def pageOffset (page : PageSize) (addr : Nat) : Int := toInt ((addr &&& (page.bytes - 1) : Nat) : Int)
def pageBase (page : PageSize) (addr : Nat) : Nat := addr &&& (2 ^ 64 - 1 - (page.bytes - 1))

-- open /dev/mem and mmap the address specified. `bytes` is an unsigned int, and
-- the length is an unsigned sum of it and the int offset.
def openMapping (addr : Nat) (flags : OpenFlags) (bytes : Nat) : Action (Option MmapInfo) := do
  let page ← ask .getpagesize
  let off := pageOffset page addr
  let base := pageBase page addr
  let fd ← ask (.open "/dev/mem".toList flags)
  if fd < 0 then do
    complain .openMem
    return none
  else do
    let length := toUnsigned ((bytes % 2 ^ 32 : Nat) + off)
    match ← ask (.mmap length flags.prot fd base) with
    | none => do
      complain .mmapMem
      ask (.close fd)
      return none
    | some mem => return some ⟨fd,mem,off,length,base⟩

def closeMapping (mapping : MmapInfo) : Action Unit := do
  ask (.munmap mapping.mem mapping.length)
  ask (.close mapping.fd)

-- sizeof(data_store)
def sizeofDataStore : Nat := 8

-- DO_READ for an operand of `size` bytes.
def mmioDoRead (b : Build) (mapping : MmapInfo) (size : Nat) : Action Int := do
  let data ← ask (.load mapping.mem mapping.off size)
  ask (.stdout ("0x".toList ++ hexLower (size * 2) (decode b.order (List.ofFn data)) ++ "\n".toList))
  return 0

-- DO_WRITE for an operand of `size` bytes.
def mmioDoWrite (b : Build) (mapping : MmapInfo) (size ldata : Nat) : Action Int := do
  ask (.store mapping.mem mapping.off (encode b.order size ldata))
  return 0

def warnNotAtomic (b : Build) : Action Unit :=
  if b.long ≠ .w64 then ask (.stderr .notAtomic) else return ()

def mmioReadX (b : Build) (argv : List Arg) (info : CmdInfo) : Action Int := do
  let addr := (strtoull 0 (← argAt argv 1)).1
  let sync ← mmapFlagsOf info
  match ← openMapping addr ⟨.rdonly,sync⟩ sizeofDataStore with
  | none => return -1
  | some mapping => do
    let ret ← match getCommandSize info with
      | 8 => mmioDoRead b mapping 1
      | 16 => mmioDoRead b mapping 2
      | 32 => mmioDoRead b mapping 4
      | 64 => do
        warnNotAtomic b
        mmioDoRead b mapping 8
      | _ => do
        ask (.stderr .invalidMmioRead)
        pure (-1)
    closeMapping mapping
    return ret

-- Unlike mmio_read_x and mmio_dump this entry does not look at privdata.
def mmioWriteX (b : Build) (argv : List Arg) (info : CmdInfo) : Action Int := do
  let addr := (strtoull 0 (← argAt argv 1)).1
  let ldata := (strtoulLong b 0 (← argAt argv 2)).1
  match ← openMapping addr ⟨.rdwr,false⟩ sizeofDataStore with
  | none => return -1
  | some mapping => do
    let ret ← match getCommandSize info with
      | 8 => mmioDoWrite b mapping 1 ldata
      | 16 => mmioDoWrite b mapping 2 ldata
      | 32 => mmioDoWrite b mapping 4 ldata
      | 64 => do
        warnNotAtomic b
        mmioDoWrite b mapping 8 ldata
      | _ => do
        ask (.stderr .invalidMmioWrite)
        pure (-1)
    closeMapping mapping
    return ret

-- One field of the text dump: the address label when a line opens, the field,
-- and the newline once four fields stand on the line.
def dumpField (b : Build) (mem : Nat) (position : Int) (label fieldsOnLine size : Nat) : Action Unit := do
  if fieldsOnLine = 0 then ask (.stdout ("0x".toList ++ hexLower 16 label ++ ":".toList)) else pure ()
  let data ← ask (.load mem position size)
  ask (.stdout (" 0x".toList ++ hexLower (size * 2) (decode b.order (List.ofFn data))))
  if (fieldsOnLine + 1) % 4 = 0 then ask (.stdout "\n".toList) else pure ()

-- The loop over the bytes left: words while four bytes are left, then single
-- bytes. Returns the number of fields on the last line.
def dumpLoop (b : Build) (mem : Nat) : Nat → Int → Nat → Nat → Action Nat
  | left+4,position,label,fieldsOnLine => do
    dumpField b mem position label fieldsOnLine 4
    dumpLoop b mem left (position + 4) ((label + 4) % 2 ^ 64) ((fieldsOnLine + 1) % 4)
  | left+1,position,label,fieldsOnLine => do
    dumpField b mem position label fieldsOnLine 1
    dumpLoop b mem left (position + 1) ((label + 1) % 2 ^ 64) ((fieldsOnLine + 1) % 4)
  | 0,_,_,fieldsOnLine => return fieldsOnLine

def mmioDump (b : Build) (argv : List Arg) (info : CmdInfo) : Action Int := do
  let desiredAddr := (strtoull 0 (← argAt argv 1)).1
  let bytesToDump := (strtoulLong b 0 (← argAt argv 2)).1
  let writeBinary ← if argv.length = 4 then do
      if (← argAt argv 3) = "-b".toList then pure (some true) else pure none
    else pure (some false)
  match writeBinary with
  | none => return -1
  | some writeBinary => do
    let sync ← mmapFlagsOf info
    match ← openMapping desiredAddr ⟨.rdonly,sync⟩ bytesToDump with
    | none => return -1
    | some mapping => do
      if writeBinary then do
        let buffer ← ask (.load mapping.mem mapping.off bytesToDump)
        let ret ← ask (.fwrite (List.ofFn buffer))
        closeMapping mapping
        return if ret = 1 then 0 else -1
      else do
        let fieldsOnLine ← dumpLoop b mapping.mem bytesToDump mapping.off desiredAddr 0
        if fieldsOnLine ≠ 0 then ask (.stdout "\n".toList) else pure ()
        closeMapping mapping
        return 0

end Iotools
