import Iotools.Commands

namespace Iotools
open Bytes Numeral Interaction

def procfsBaseDir : Text := "/proc/bus/pci".toList
def sysfsBaseDir : Text := "/sys/bus/pci/devices".toList

-- "%04x:%02x:%02x.%x"
def pciName (segment bus device function : Nat) : Text :=
  hexLower 4 segment ++ ":".toList ++ hexLower 2 bus ++ ":".toList ++ hexLower 2 device ++ ".".toList ++
    hexLower 0 function

def sysfsFile (segment bus device function : Nat) : Text :=
  sysfsBaseDir ++ "/".toList ++ pciName segment bus device function ++ "/config".toList

def procfsDir (segment bus : Nat) : Text :=
  if segment = 0 then hexLower 2 bus else hexLower 4 segment ++ ":".toList ++ hexLower 2 bus

def procfsFile (segment bus device function : Nat) : Text :=
  procfsBaseDir ++ "/".toList ++ procfsDir segment bus ++ "/".toList ++ hexLower 2 device ++ ".".toList ++
    hexLower 0 function

-- Try sysfs first, but fall back on the proc filesystem.
def openDevice (segment bus device function : Nat) (mode : AccessMode) : Action Int := do
  let sysfs ← ask (.open (sysfsFile segment bus device function) ⟨mode,false⟩)
  let fd ← if sysfs < 0 then ask (.open (procfsFile segment bus device function) ⟨mode,false⟩) else pure sysfs
  if fd < 0 then complain (.openPci segment bus device function) else pure ()
  return fd

structure PciAddress where
  seg : Nat
  bus : Nat
  dev : Nat
  func : Nat
  reg : Nat
  deriving DecidableEq

-- The leading arguments, read from argv[arg] on when the segment is given. All
-- of them are unsigned int variables.
def pciAddress (b : Build) (argv : List Arg) (withSegment : Bool) : Action PciAddress := do
  let seg ← if withSegment then do pure (toUnsigned (strtolLong b 0 (← argAt argv 1)).1) else pure 0
  let arg := if withSegment then 2 else 1
  let bus := toUnsigned (strtolLong b 0 (← argAt argv arg)).1
  let dev := (strtoulLong b 0 (← argAt argv (arg + 1))).1 % 2 ^ 32
  let func := (strtoulLong b 0 (← argAt argv (arg + 2))).1 % 2 ^ 32
  let reg := (strtoulLong b 0 (← argAt argv (arg + 3))).1 % 2 ^ 32
  return ⟨seg,bus,dev,func,reg⟩

-- DO_READ: the descriptor stays open on the failing path.
def pciDoRead (b : Build) (fd : Int) (size : Nat) (leToHost : Build → Nat → Nat) : Action Int := do
  match ← ask (.read fd size) with
  | some bytes =>
    if bytes.val.length ≠ size then do
      complain .read
      return -1
    else do
      ask (.stdout ("0x".toList ++ hexLower (size * 2) (leToHost b (decode b.order bytes.val)) ++ "\n".toList))
      ask (.close fd)
      return 0
  | none => do
    complain .read
    return -1

def pciReadX (b : Build) (argv : List Arg) (info : CmdInfo) : Action Int := do
  let address ← pciAddress b argv (5 < argv.length)
  let fd ← openDevice address.seg address.bus address.dev address.func .rdonly
  if fd < 0 then return -1
  else do
    if (← ask (.lseek fd address.reg)) < 0 then do
      complain (.lseek address.reg)
      return -1
    else
      match getCommandSize info with
      | 8 => pciDoRead b fd 1 leToHost8
      | 16 => pciDoRead b fd 2 leToHost16
      | 32 => pciDoRead b fd 4 leToHost32
      | _ => do
        ask (.stderr .invalidPciEntry)
        return -1

-- DO_WRITE: the value is narrowed to the operand before the byte swap.
def pciDoWrite (b : Build) (fd : Int) (size : Nat) (hostToLe : Build → Nat → Nat) (ldata : Nat) : Action Int := do
  let written ← ask (.write fd (encode b.order size (hostToLe b (ldata % 256 ^ size))))
  if written ≠ size then do
    complain .write
    return -1
  else do
    ask (.close fd)
    return 0

def pciWriteX (b : Build) (argv : List Arg) (info : CmdInfo) : Action Int := do
  let address ← pciAddress b argv (6 < argv.length)
  let ldata := (strtoulLong b 0 (← argAt argv (if 6 < argv.length then 6 else 5))).1
  let fd ← openDevice address.seg address.bus address.dev address.func .wronly
  if fd < 0 then return -1
  else do
    if (← ask (.lseek fd address.reg)) < 0 then do
      complain (.lseek address.reg)
      return -1
    else
      match getCommandSize info with
      | 8 => pciDoWrite b fd 1 hostToLe8 ldata
      | 16 => pciDoWrite b fd 2 hostToLe16 ldata
      | 32 => pciDoWrite b fd 4 hostToLe32 ldata
      | _ => do
        ask (.stderr .invalidPciEntry)
        return -1

-- One `%<width>x` conversion of sscanf (width 0: unlimited): white space is
-- skipped, then at most `width` characters are converted to an int.
def scanHex (width : Nat) (text : Text) : Option (Int × Text) :=
  let text := text.dropWhile isSpace
  let field := if width = 0 then text else text.take width
  -- "0x" without a digit is consumed and is no number
  match hexPrefix (sign field).2,(sign field).2 with
  | none,'0' :: 'x' :: _ => none
  | none,'0' :: 'X' :: _ => none
  | _,_ =>
    match subject 16 field with
    | none => none
    | some found =>
      let value : Int := if found.negative then -(found.magnitude : Int) else found.magnitude
      some (toInt value,found.rest ++ text.drop field.length)

-- A literal character of a scanf format.
def scanChar (c : Char) : Text → Option Text
  | head :: rest => if head = c then some rest else none
  | [] => none

-- sscanf(name, "%04x:%02x:%02x.%x", ...) == 4
def scanSysfsName (name : Text) : Option (Int × Int × Int × Int) := do
  let (seg,rest) ← scanHex 4 name
  let rest ← scanChar ':' rest
  let (bus,rest) ← scanHex 2 rest
  let rest ← scanChar ':' rest
  let (dev,rest) ← scanHex 2 rest
  let rest ← scanChar '.' rest
  let (fun_,_) ← scanHex 0 rest
  return (seg,bus,dev,fun_)

-- sscanf(name, "%02x.%x", ...) == 2
def scanProcfsName (name : Text) : Option (Int × Int) := do
  let (dev,rest) ← scanHex 2 name
  let rest ← scanChar '.' rest
  let (fun_,_) ← scanHex 0 rest
  return (dev,fun_)

-- "%d %d %d\n"
def pciLine (bus dev fun_ : Int) : Text :=
  decimal bus ++ " ".toList ++ decimal dev ++ " ".toList ++ decimal fun_ ++ "\n".toList

def listSysfsEntries : List Dirent → Action Unit
  | [] => return ()
  | de :: rest => do
    match scanSysfsName de.name with
    | some (_,bus,dev,fun_) => ask (.stdout (pciLine bus dev fun_))
    | none => pure ()
    listSysfsEntries rest

def pciListSysfs : Action Int := do
  match ← ask (.opendir sysfsBaseDir) with
  | none => do
    complain (.opendir sysfsBaseDir)
    return -1
  | some entries => do
    listSysfsEntries entries
    ask (.closedir sysfsBaseDir)
    return 0

def listProcfsBus (bus : Int) : List Dirent → Action Unit
  | [] => return ()
  | de :: rest => do
    match scanProcfsName de.name with
    | some (dev,fun_) => ask (.stdout (pciLine bus dev fun_))
    | none => pure ()
    listProcfsBus bus rest

def listProcfsEntries : List Dirent → Action Int
  | [] => return 0
  | de :: rest => do
    match scanHex 2 de.name,de.isDir with
    | some (bus,_),true => do
      let path := procfsBaseDir ++ "/".toList ++ de.name
      match ← ask (.opendir path) with
      | none => do
        complain (.opendir path)
        return -1
      | some entries => do
        listProcfsBus bus entries
        listProcfsEntries rest
    | _,_ => listProcfsEntries rest

def pciListProcfs : Action Int := do
  match ← ask (.opendir procfsBaseDir) with
  | none => do
    complain (.opendir procfsBaseDir)
    return -1
  | some entries => listProcfsEntries entries

def pciList (_ : List Arg) (_ : CmdInfo) : Action Int := do
  let ret ← pciListSysfs
  if ret < 0 then pciListProcfs else return ret

end Iotools
