import Iotools.Smbus
import Iotools.Mmio
import Iotools.Pci
import Iotools.IoPort
import Iotools.Logic
import Iotools.Misc
import Iotools.RegisterFiles

namespace Iotools
open Numeral Interaction

-- smbus_rw.c
def smbusReadParams := fixedArgs 4 "<adapter> <address> <register>" 0
def smbusWriteParams := fixedArgs 5 "<adapter> <address> <register> <value>" 0
def smbusReceiveByteParams := fixedArgs 3 "<adapter> <address>" 0
def smbusSendByteParams := fixedArgs 4 "<adapter> <address> <value>" 0
def smbusQuickParams := fixedArgs 4 "<adapter> <address> <0|1>" 0
def smbusWritereadParams := fixedArgs 5 "<adapter> <address> <write_value> <read_count>" 0

-- MAKE_SMBUS_RW_CMDS
def smbusRwCmds (suffix : String) (size : SmbusSize) : List CmdInfo :=
  [makeCmdWithParams ("smbus_read" ++ suffix) .smbusRead (.smbusOp ⟨size,.read⟩) smbusReadParams,
   makeCmdWithParams ("smbus_write" ++ suffix) .smbusWrite (.smbusOp ⟨size,.write⟩) smbusWriteParams]

def smbusCmds : List CmdInfo :=
  smbusRwCmds "8" .size8 ++ smbusRwCmds "16" .size16 ++ smbusRwCmds "32" .size32 ++ smbusRwCmds "64" .size64 ++
  smbusRwCmds "block" .block ++
  [makeCmdWithParams "smbus_receive_byte" .smbusRead (.smbusOp ⟨.byte,.read⟩) smbusReceiveByteParams,
   makeCmdWithParams "smbus_send_byte" .smbusWrite (.smbusOp ⟨.byte,.write⟩) smbusSendByteParams,
   makeCmdWithParams "smbus_quick" .smbusWrite (.smbusOp ⟨.quick,.write⟩) smbusQuickParams,
   makeCmdWithParams "smbus_process_call" .smbusProcessCall (.smbusOp ⟨.procCall,.processCall⟩) smbusWriteParams,
   makeCmdWithParams "smbus_block_process_call" .smbusProcessCall (.smbusOp ⟨.blockProcCall,.blockProcessCall⟩)
     smbusWriteParams,
   makeCmdWithParams "smbus_writeread" .smbusWriteread (.smbusOp ⟨.writeRead,.writeread⟩) smbusWritereadParams]

-- mmio_rw.c
def mmioRdParams := fixedArgs 2 "<addr>" 0
def mmioWrParams := fixedArgs 3 "<addr> <value>" 0
def mmioDumpParams := varArgs 3 4 "<addr> <num_bytes> [-b]" 0

-- MAKE_MMIO_RW_CMD_PAIR
def mmioRwCmdPair (stem : String) (suffix : String) (size : Nat) (sync : Bool) : List CmdInfo :=
  [makeCmdWithParamsSize (stem ++ "_read" ++ suffix) .mmioReadX (.mmapFileFlags sync) mmioRdParams size,
   makeCmdWithParamsSize (stem ++ "_write" ++ suffix) .mmioWriteX (.mmapFileFlags sync) mmioWrParams size]

def mmapCmds (stem : String) (sync : Bool) : List CmdInfo :=
  mmioRwCmdPair stem "8" 8 sync ++ mmioRwCmdPair stem "16" 16 sync ++ mmioRwCmdPair stem "32" 32 sync ++
  mmioRwCmdPair stem "64" 64 sync ++
  [makeCmdWithParams (stem ++ "_dump") .mmioDump (.mmapFileFlags sync) mmioDumpParams]

-- uncacheable_access carries O_SYNC, cacheable_access does not
def mmioCmds : List CmdInfo := mmapCmds "mmio" true
def cacheableMmioCmds : List CmdInfo := mmapCmds "mem" false

-- pci_rw.c
def pciRdParams := varArgs 5 6 "[segment] <bus> <dev> <func> <reg>" 0
def pciWrParams := varArgs 6 7 "[segment] <bus> <dev> <func> <reg> <data>" 0

def pciRwCmdPair (suffix : String) (size : Nat) : List CmdInfo :=
  [makeCmdWithParamsSize ("pci_read" ++ suffix) .pciReadX .null pciRdParams size,
   makeCmdWithParamsSize ("pci_write" ++ suffix) .pciWriteX .null pciWrParams size]

def pciCmds : List CmdInfo :=
  pciRwCmdPair "8" 8 ++ pciRwCmdPair "16" 16 ++ pciRwCmdPair "32" 32 ++ [makeCmd "pci_list" .pciList .null]

-- io_rw.c
def ioRdParams := fixedArgs 2 "<io_addr>" 3
def ioWrParams := fixedArgs 3 "<io_addr> <data>" 3

def ioRwCmdPair (suffix : String) (size : Nat) : List CmdInfo :=
  [makeCmdWithParamsSize ("io_read" ++ suffix) .ioReadX .null ioRdParams size,
   makeCmdWithParamsSize ("io_write" ++ suffix) .ioWriteX .null ioWrParams size]

def ioCmds : List CmdInfo := ioRwCmdPair "8" 8 ++ ioRwCmdPair "16" 16 ++ ioRwCmdPair "32" 32

-- misc.c
def cpuidParams := varArgs 3 4 "<cpu> <function> [index]" 0
def runonParams := varArgs 3 intMax "<cpu> <cmd> [args]" 0

def miscCmds (b : Build) : List CmdInfo :=
  (if b.arch = .x86 then
    [makeCmd "rdtsc" .rdtsc .null,
     makeCmdWithParams "cpuid" .cpuid .null cpuidParams]
   else []) ++
  [makeCmd "busy_loop" .busyLoop .null,
   makeCmd "cpu_list" .cpuList .null,
   makeCmdWithParams "runon" .runon .null runonParams]

-- logic.c
def logicOpParams := varArgs 2 intMax "<value> <value> ..." 0
def notParams := fixedArgs 2 "<value>" 0
def shiftParams := fixedArgs 3 "<value> <shift>" 0
def bitParams := fixedArgs 3 "<value> <bit>" 0

def logicCmds : List CmdInfo :=
  [makeCmdWithParams "or" .logicOp (.logicInfo .or) logicOpParams,
   makeCmdWithParams "and" .logicOp (.logicInfo .and) logicOpParams,
   makeCmdWithParams "xor" .logicOp (.logicInfo .xor) logicOpParams,
   makeCmdWithParams "shl" .shift (.logicInfo .shl) shiftParams,
   makeCmdWithParams "shr" .shift (.logicInfo .shr) shiftParams,
   makeCmdWithParams "not" .not .null notParams,
   makeCmdWithParams "btr" .logicOp (.logicInfo .btr) bitParams,
   makeCmdWithParams "bts" .logicOp (.logicInfo .bts) bitParams]

-- msr.c, cmos_rw.c and scom.c
def msrCmds : List CmdInfo :=
  [makeCmdWithParams "rdmsr" .rdMsr .null (fixedArgs 3 "<cpu> <msr>" 0),
   makeCmdWithParams "wrmsr" .wrMsr .null (fixedArgs 4 "<cpu> <msr> <data>" 0)]

def cmosCmds : List CmdInfo :=
  [makeCmdWithParams "cmos_read" .cmosRd .null (fixedArgs 2 "<index>" 0),
   makeCmdWithParams "cmos_write" .cmosWr .null (fixedArgs 3 "<index> <data>" 0)]

def scomCpuParams := fixedArgs 2 "<cpu>" 0

def scomCmds : List CmdInfo :=
  [makeCmdWithParams "getscom" .rdScom .null (fixedArgs 3 "<chipid> <scom>" 0),
   makeCmdWithParams "putscom" .wrScom .null (fixedArgs 4 "<chipid> <scom> <data>" 0),
   makeCmdWithParams "cputochipid" .cpuToChipid .null scomCpuParams,
   makeCmdWithParams "cputoex" .cpuToEx .null scomCpuParams]

-- struct cmd_group without its link; the link lives in the registry.
inductive Group where
  | smbus | mmio | mem | pci | misc | io | logic | msr | cmos | scom
  deriving DecidableEq, Repr

def Group.name : Group → String
  | .smbus => "SMBus" | .mmio => "MMIO" | .mem => "MEM" | .pci => "PCI" | .misc => "MISC"
  | .io => "IO" | .logic => "LOGIC" | .msr => "MSR" | .cmos => "CMOS" | .scom => "SCOM"

def Group.description : Group → Option String
  | .smbus => some "commands to access the system management bus"
  | .mmio => some "commands to access uncacheable memory mapped address spaces"
  | .mem => some "commands to access cacheable memory mapped address spaces"
  | .pci => some "commands to access PCI registers"
  | .misc => none
  | .io => some "commands to access registers in the IO address space"
  | .logic => some "commands to perform boolean algebra operations"
  | .msr => some "commands to access CPU model specific registers"
  | .cmos => some "commands to access the CMOS registers"
  | .scom => some "commands to access SCOM registers"

def Group.commands (b : Build) : Group → List CmdInfo
  | .smbus => smbusCmds
  | .mmio => mmioCmds
  | .mem => cacheableMmioCmds
  | .pci => pciCmds
  | .misc => miscCmds b
  | .io => ioCmds
  | .logic => logicCmds
  | .msr => msrCmds
  | .cmos => cmosCmds
  | .scom => scomCmds

-- The groups a build registers: msr.c is empty outside x86, scom.c outside
-- powerpc.
def groups (b : Build) : List Group :=
  [.smbus,.mmio,.mem,.pci,.misc,.io,.logic,.cmos] ++
  (match b.arch with
   | .x86 => [.msr]
   | .powerpc => [.scom]
   | .other => [])

def registered (b : Build) : List CmdInfo := (groups b).flatMap (Group.commands b)

-- Every command of some build.
def everyCmd : List CmdInfo := registered .x86_64 ++ scomCmds

theorem mem_everyCmd (member : info ∈ registered b) : info ∈ everyCmd := by
  obtain ⟨group,_,listed⟩ := List.mem_flatMap.mp member
  unfold everyCmd registered
  have fixed (group : Group) (inside : group ∈ groups .x86_64) (listed : info ∈ Group.commands .x86_64 group) :
      info ∈ (groups .x86_64).flatMap (Group.commands .x86_64) ++ scomCmds :=
    List.mem_append_left _ (List.mem_flatMap.mpr ⟨group,inside,listed⟩)
  cases group with
  | scom => exact List.mem_append_right _ listed
  | misc =>
    refine fixed .misc (by decide) ?_
    simp only [Group.commands,miscCmds,List.mem_append] at listed ⊢
    rcases listed with machine | common
    · split at machine
      · exact .inl machine
      · cases machine
    · exact .inr common
  | smbus => exact fixed .smbus (by decide) listed
  | mmio => exact fixed .mmio (by decide) listed
  | mem => exact fixed .mem (by decide) listed
  | pci => exact fixed .pci (by decide) listed
  | io => exact fixed .io (by decide) listed
  | logic => exact fixed .logic (by decide) listed
  | msr => exact fixed .msr (by decide) listed
  | cmos => exact fixed .cmos (by decide) listed

-- The call through the function pointer `cmd_info->entry`. `fuel` bounds the
-- rounds for which the endless busy_loop is followed.
def Entry.call (entry : Entry) (b : Build) (fuel : Nat) (argv : List Arg) (info : CmdInfo) : Action Int :=
  match entry with
  | .smbusRead => Iotools.smbusRead b argv info
  | .smbusWrite => Iotools.smbusWrite b argv info
  | .smbusProcessCall => Iotools.smbusProcessCall b argv info
  | .smbusWriteread => Iotools.smbusWriteread b argv info
  | .mmioReadX => Iotools.mmioReadX b argv info
  | .mmioWriteX => Iotools.mmioWriteX b argv info
  | .mmioDump => Iotools.mmioDump b argv info
  | .pciReadX => Iotools.pciReadX b argv info
  | .pciWriteX => Iotools.pciWriteX b argv info
  | .pciList => Iotools.pciList argv info
  | .busyLoop => Iotools.busyLoop b fuel argv info
  | .rdtsc => Iotools.rdtsc argv info
  | .cpuid => Iotools.cpuid b argv info
  | .cpuList => Iotools.cpuList b argv info
  | .runon => Iotools.runon b argv info
  | .ioReadX => Iotools.ioReadX b argv info
  | .ioWriteX => Iotools.ioWriteX b argv info
  | .logicOp => Iotools.logicOp argv info
  | .not => Iotools.not argv info
  | .shift => Iotools.shift b argv info
  | .rdMsr => Iotools.rdMsr b argv info
  | .wrMsr => Iotools.wrMsr b argv info
  | .cmosRd => Iotools.cmosRd b argv info
  | .cmosWr => Iotools.cmosWr b argv info
  | .rdScom => Iotools.rdScom b argv info
  | .wrScom => Iotools.wrScom b argv info
  | .cpuToChipid => Iotools.cpuToChipid b argv info
  | .cpuToEx => Iotools.cpuToEx b argv info

-- _run_command
def runInfo (b : Build) (fuel : Nat) (argv : List Arg) (info : CmdInfo) : Action Int := do
  if (← checkPrereqs b argv info.params) < 0 then return -1
  else info.entry.call b fuel argv info

end Iotools
