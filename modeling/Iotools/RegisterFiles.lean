import Iotools.Commands

namespace Iotools
open Bytes Numeral Interaction

-- msr.c: every command opens the register file, seeks and transfers.
def msrDevice (cpu : Int) : Text := "/dev/cpu/".toList ++ decimal cpu ++ "/msr".toList

def msrOpenAndSeek (cpu : Int) (msr : Nat) (mode : AccessMode) : Action (Option Int) := do
  let fd ← ask (.open (msrDevice cpu) ⟨mode,false⟩)
  if fd < 0 then do
    complain (.openDevice (msrDevice cpu))
    return none
  else do
    if (← ask (.lseek fd (toOff 64 msr))) = -1 then do
      complain (.lseek msr)
      ask (.close fd)
      return none
    else return some fd

-- The tail of rd_msr and rd_scom: an eight-byte read, the descriptor closed on
-- every path before the value is printed.
def readQuad (b : Build) (fd : Int) : Action Int := do
  match ← ask (.read fd 8) with
  | some bytes =>
    if bytes.val.length ≠ 8 then do
      complain .read
      ask (.close fd)
      return -1
    else do
      ask (.close fd)
      ask (.stdout ("0x".toList ++ hexLower 16 (decode b.order bytes.val) ++ "\n".toList))
      return 0
  | none => do
    complain .read
    ask (.close fd)
    return -1

-- The tail of wr_msr and wr_scom.
def writeQuad (b : Build) (fd : Int) (data : Nat) : Action Int := do
  let written ← ask (.write fd (encode b.order 8 data))
  let ret ← if written ≠ 8 then do
      complain .write
      pure (-1)
    else pure 0
  ask (.close fd)
  return ret

def rdMsr (b : Build) (argv : List Arg) (_ : CmdInfo) : Action Int := do
  let cpu := toInt (strtolLong b 0 (← argAt argv 1)).1
  let msr := (strtoulLong b 0 (← argAt argv 2)).1
  match ← msrOpenAndSeek cpu msr .rdonly with
  | none => return -1
  | some fd => readQuad b fd

def wrMsr (b : Build) (argv : List Arg) (_ : CmdInfo) : Action Int := do
  let cpu := toInt (strtolLong b 0 (← argAt argv 1)).1
  let msr := (strtoulLong b 0 (← argAt argv 2)).1
  let data := (strtoull 0 (← argAt argv 3)).1
  match ← msrOpenAndSeek cpu msr .wronly with
  | none => return -1
  | some fd => writeQuad b fd data

-- cmos_rw.c. From the kernel driver: bytes below 14 are RTC.
def nvramDevice : Text := "/dev/nvram".toList
def nvramOffset : Nat := 14

-- The steps both commands share up to the transfer; `none` stands for -1.
def cmosOpenAndSeek (b : Build) (index : Nat) (mode : AccessMode) : Action (Option Int) := do
  let fd ← ask (.open nvramDevice ⟨mode,false⟩)
  if fd < 0 then do
    complain (.openDevice nvramDevice)
    return none
  else do
    if (← ask (.lseek fd (toOff b.long.bits index))) < 0 then do
      complain (.lseek index)
      ask (.close fd)
      return none
    else return some fd

def cmosRd (b : Build) (argv : List Arg) (_ : CmdInfo) : Action Int := do
  let index := (strtoulLong b 0 (← argAt argv 1)).1
  if index < nvramOffset then do
    ask (.stderr .belowNvram)
    return -1
  else do
    match ← cmosOpenAndSeek b (index - nvramOffset) .rdonly with
    | none => return -1
    | some fd => do
      match ← ask (.read fd 1) with
      | some bytes =>
        if bytes.val.length ≠ 1 then do
          complain .read
          ask (.close fd)
          return -1
        else do
          ask (.close fd)
          ask (.stdout ("0x".toList ++ hexLower 2 (decode b.order bytes.val) ++ "\n".toList))
          return 0
      | none => do
        complain .read
        ask (.close fd)
        return -1

def cmosWr (b : Build) (argv : List Arg) (_ : CmdInfo) : Action Int := do
  let index := (strtoulLong b 0 (← argAt argv 1)).1
  if index < nvramOffset then do
    ask (.stderr .belowNvram)
    return -1
  else do
    let ldata := (strtoulLong b 0 (← argAt argv 2)).1
    match ← cmosOpenAndSeek b (index - nvramOffset) .wronly with
    | none => return -1
    | some fd => do
      let written ← ask (.write fd (encode b.order 1 ldata))
      if written ≠ 1 then do
        complain .write
        ask (.close fd)
        return -1
      else do
        ask (.close fd)
        return 0

-- scom.c. The high bit (indirect SCOM) moves to bit 62 of the offset.
def scomOffset (scom : Nat) : Int :=
  let offset := (scom &&& (2 ^ 63 - 1)) * 8 % 2 ^ 64
  toOff 64 (if scom &&& 2 ^ 63 ≠ 0 then offset ||| 2 ^ 62 else offset)

def scomDevice (chip : Int) : Text :=
  "/sys/kernel/debug/powerpc/scom/".toList ++ hexLower 8 (toUnsigned chip) ++ "/access".toList

def scomOpenAndSeek (chip : Int) (scom : Nat) (mode : AccessMode) : Action (Option Int) := do
  let fd ← ask (.open (scomDevice chip) ⟨mode,false⟩)
  if fd < 0 then do
    complain (.openDevice (scomDevice chip))
    return none
  else do
    if (← ask (.lseek fd (scomOffset scom))) = -1 then do
      complain (.lseek (scomOffset scom))
      ask (.close fd)
      return none
    else return some fd

def rdScom (b : Build) (argv : List Arg) (_ : CmdInfo) : Action Int := do
  let chip := toInt (strtolLong b 0 (← argAt argv 1)).1
  let scom := (strtoull 0 (← argAt argv 2)).1
  match ← scomOpenAndSeek chip scom .rdonly with
  | none => return -1
  | some fd => readQuad b fd

def wrScom (b : Build) (argv : List Arg) (_ : CmdInfo) : Action Int := do
  let chip := toInt (strtolLong b 0 (← argAt argv 1)).1
  let scom := (strtoull 0 (← argAt argv 2)).1
  let data := (strtoull 0 (← argAt argv 3)).1
  match ← scomOpenAndSeek chip scom .wronly with
  | none => return -1
  | some fd => writeQuad b fd data

-- strtoul(pir_str, NULL, 16) on a buffer that read() does not terminate: where
-- the conversion would take one more character, it reads beyond the buffer.
def parsePir (b : Build) (buffer : Buffer 64) : Parse Nat :=
  let chars := (List.ofFn buffer).map (fun byte => Char.ofNat byte.toNat)
  let text := chars.takeWhile (· ≠ '\x00')
  if text.length = 64 ∧ (wholeValue 16 (text ++ ['0'])).isSome then .error (.fault .pastNul)
  else .ok ((strtoulLong b 16 text).1 % 2 ^ 32)

def pirFile (cpu : Int) : Text := "/sys/devices/system/cpu/cpu".toList ++ decimal cpu ++ "/pir".toList

-- Reads the Processor Identification Register (PIR) for a linux CPU number.
def cpuToPir (b : Build) (cpu : Int) : Action (Option Nat) := do
  let pirStr ← ask (.stale 64)
  let fd ← ask (.open (pirFile cpu) ⟨.rdonly,false⟩)
  if fd < 0 then do
    complain (.openDevice (pirFile cpu))
    return none
  else do
    match ← ask (.read fd 64) with
    | none => do
      complain .read
      ask (.close fd)
      return none
    | some bytes => do
      ask (.close fd)
      report (parsePir b (pirStr.patch 0 bytes.val))

-- Converts a PIR to a chip ID using the device tree. The thread number is
-- zeroed out to get the pir of the core. Only a failing read is an error.
def pirToChipid (pir : Nat) (chipid : Buffer 4) : Action (Option (Buffer 4)) := do
  let core := pir - pir % 8
  let pattern := "/proc/device-tree/cpus/*@".toList ++ hexLower 0 core ++ "/ibm,chip-id".toList
  match ← ask (.glob pattern) with
  | .error code => do
    ask (.stderr (.glob pattern code))
    return none
  | .ok path => do
    let fd ← ask (.open path ⟨.rdonly,false⟩)
    if fd < 0 then do
      complain (.openDevice path)
      return none
    else do
      match ← ask (.read fd 4) with
      | none => do
        complain .read
        ask (.close fd)
        return none
      | some bytes => do
        ask (.close fd)
        return some (chipid.patch 0 bytes.val)

def cpuToChipid (b : Build) (argv : List Arg) (_ : CmdInfo) : Action Int := do
  let stale ← ask (.stale 4)
  let cpu := toInt (strtoulLong b 0 (← argAt argv 1)).1
  match ← cpuToPir b cpu with
  | none => return -1
  | some pir => do
    match ← pirToChipid pir stale with
    | none => return -1
    | some chipid => do
      ask (.stdout ("0x".toList ++ hexLower 8 (decode b.order (List.ofFn chipid)) ++ "\n".toList))
      return 0

-- EX number is the 4-bit core ID part of PIR
def cpuToEx (b : Build) (argv : List Arg) (_ : CmdInfo) : Action Int := do
  let cpu := toInt (strtoulLong b 0 (← argAt argv 1)).1
  match ← cpuToPir b cpu with
  | none => return -1
  | some pir => do
    ask (.stdout (decimal ((pir / 8) % 16 : Nat) ++ "\n".toList))
    return 0

end Iotools
