import Iotools.Sys

namespace Iotools
open Numeral Interaction

-- enum SMBUS_SIZE of smbus_rw.c
inductive SmbusSize where
  | size8 | size16 | size32 | size64 | block | byte | quick | procCall | blockProcCall | writeRead
  deriving DecidableEq, Repr

-- The functions a struct smbus_op can name as perform_op.
inductive PerformOp where
  | read | write | processCall | blockProcessCall | writeread
  deriving DecidableEq, Repr

structure SmbusOp where
  size : SmbusSize
  performOp : PerformOp
  deriving DecidableEq, Repr

-- LOGIC_OP of logic.c
inductive LogicOp where
  | or | and | xor | shl | shr | bts | btr
  deriving DecidableEq, Repr

-- What a `const void *privdata` points to. The entry functions cast it without
-- a check, so a null or foreign pointer is a fault of the entry that reads it.
inductive Privdata where
  | null
  | smbusOp (op : SmbusOp)
  | mmapFileFlags (sync : Bool)
  | logicInfo (op : LogicOp)
  deriving DecidableEq, Repr

inductive Entry where
  | smbusRead | smbusWrite | smbusProcessCall | smbusWriteread
  | mmioReadX | mmioWriteX | mmioDump
  | pciReadX | pciWriteX | pciList
  | busyLoop | rdtsc | cpuid | cpuList | runon
  | ioReadX | ioWriteX
  | logicOp | not | shift
  | rdMsr | wrMsr
  | cmosRd | cmosWr
  | rdScom | wrScom | cpuToChipid | cpuToEx
  deriving DecidableEq, Repr

-- The argument counts include argv[0].
structure PrereqParams where
  minArgs : Nat
  maxArgs : Nat
  usage : String
  ioplNeeded : Nat
  deriving DecidableEq, Repr

structure CmdInfo where
  name : String
  entry : Entry
  privdata : Privdata
  params : Option PrereqParams
  sizedata : Option Nat
  deriving DecidableEq, Repr

-- MAKE_PREREQ_PARAMS_FIXED_ARGS and MAKE_PREREQ_PARAMS_VAR_ARGS
def fixedArgs (nargs : Nat) (usage : String) (iopl : Nat) : PrereqParams := ⟨nargs,nargs,usage,iopl⟩
def varArgs (minArgs maxArgs : Nat) (usage : String) (iopl : Nat) : PrereqParams := ⟨minArgs,maxArgs,usage,iopl⟩

-- MAKE_CMD, MAKE_CMD_WITH_PARAMS and MAKE_CMD_WITH_PARAMS_SIZE
def makeCmd (name : String) (entry : Entry) (privdata : Privdata) : CmdInfo :=
  ⟨name,entry,privdata,none,none⟩
def makeCmdWithParams (name : String) (entry : Entry) (privdata : Privdata) (params : PrereqParams) : CmdInfo :=
  ⟨name,entry,privdata,some params,none⟩
def makeCmdWithParamsSize (name : String) (entry : Entry) (privdata : Privdata) (params : PrereqParams)
    (size : Nat) : CmdInfo :=
  ⟨name,entry,privdata,some params,some size⟩

def getCommandSize (info : CmdInfo) : Int :=
  match info.sizedata with
  | none => -1
  | some size => size

-- The argument count test of check_prereqs.
def Admits (params : Option PrereqParams) (argv : List Arg) : Prop :=
  ∀ p ∈ params, p.minArgs ≤ argv.length ∧ argv.length ≤ p.maxArgs

instance (params : Option PrereqParams) (argv : List Arg) : Decidable (Admits params argv) :=
  inferInstanceAs (Decidable (∀ p ∈ params, p.minArgs ≤ argv.length ∧ argv.length ≤ p.maxArgs))

def checkPrereqs (b : Build) (argv : List Arg) (params : Option PrereqParams) : Action Int :=
  match params with
  | none => return 0
  | some p =>
    if argv.length < p.minArgs ∨ p.maxArgs < argv.length then do
      let name ← argAt argv 0
      ask (.stderr (.usage name p.usage.toList))
      return -1
    else if b.arch = .x86 ∧ p.ioplNeeded ≠ 0 then do
      if (← ask (.iopl p.ioplNeeded)) < 0 then do
        ask (.stderr .iopl)
        return -1
      else return 0
    else return 0

-- The casts `(const struct ... *)info->privdata` followed by a field access.
def smbusOpOf (info : CmdInfo) : Action SmbusOp :=
  match info.privdata with
  | .smbusOp op => return op
  | .null => .fault .nullPrivdata
  | _ => .fault .wrongPrivdata

def mmapFlagsOf (info : CmdInfo) : Action Bool :=
  match info.privdata with
  | .mmapFileFlags sync => return sync
  | .null => .fault .nullPrivdata
  | _ => .fault .wrongPrivdata

def logicInfoOf (info : CmdInfo) : Action LogicOp :=
  match info.privdata with
  | .logicInfo op => return op
  | .null => .fault .nullPrivdata
  | _ => .fault .wrongPrivdata

end Iotools
