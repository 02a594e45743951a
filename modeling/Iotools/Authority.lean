import Iotools.ChipId
import Iotools.Contracts
import Iotools.Invocation
import Iotools.TableSafety

namespace Iotools
open Bytes Numeral Interaction

-- What stands on stdout: nothing, whole lines, text that waits for its newline,
-- or the raw bytes of a binary dump.
inductive Screen where
  | nothing | lines | unended | binary
  deriving DecidableEq, Repr

def Screen.after (screen : Screen) (text : Text) : Screen :=
  if screen = .binary then .binary
  else if text = [] then screen
  else if text.getLast? = some '\n' then .lines
  else .unended

structure Ledger where
  granted : Bool
  pinned : Bool
  globbed : Option Text
  located : Option Text
  reported : Bool
  screen : Screen

def Ledger.start : Ledger := ⟨false,false,none,none,false,.nothing⟩

def Ledger.step (s : Ledger) (e : Event Sys) : Ledger :=
  match e with
  | ⟨.iopl _,level⟩ => {s with granted := decide ((0 : Int) ≤ level)}
  | ⟨.setaffinity _,result⟩ => {s with pinned := decide ((0 : Int) ≤ result)}
  | ⟨.glob _,.ok path⟩ => {s with globbed := some path}
  | ⟨.readlink _,target⟩ => {s with located := target}
  | ⟨.stderr _,_⟩ => {s with reported := true}
  | ⟨.stdout text,_⟩ => {s with screen := s.screen.after text}
  | ⟨.fwrite _,_⟩ => {s with screen := .binary}
  | _ => s

-- The commands that access their device for writing only.
def Entry.prints : Entry → Bool
  | .smbusWrite | .mmioWriteX | .pciWriteX | .ioWriteX | .wrMsr | .cmosWr | .wrScom | .runon => false
  | _ => true

def Entry.opens (b : Build) (entry : Entry) (s : Ledger) (path : Text) (flags : OpenFlags) : Prop :=
  match entry with
  | .smbusRead | .smbusWrite | .smbusProcessCall | .smbusWriteread =>
    flags = ⟨.rdwr,false⟩ ∧ ∃ bus : UInt8, path = "/dev/i2c-".toList ++ decimal bus.toNat
  | .mmioReadX | .mmioDump => flags.mode = .rdonly ∧ path = "/dev/mem".toList
  | .mmioWriteX => flags.mode = .rdwr ∧ path = "/dev/mem".toList
  | .pciReadX => flags = ⟨.rdonly,false⟩ ∧ ∃ seg bus dev func, path = sysfsFile seg bus dev func ∨ path = procfsFile seg bus dev func
  | .pciWriteX => flags = ⟨.wronly,false⟩ ∧ ∃ seg bus dev func, path = sysfsFile seg bus dev func ∨ path = procfsFile seg bus dev func
  | .ioReadX => flags = ⟨.rdonly,false⟩ ∧ b.arch ≠ .x86 ∧ path = devPort
  | .ioWriteX => flags = ⟨.wronly,false⟩ ∧ b.arch ≠ .x86 ∧ path = devPort
  | .rdMsr => flags = ⟨.rdonly,false⟩ ∧ ∃ cpu, path = msrDevice cpu
  | .wrMsr => flags = ⟨.wronly,false⟩ ∧ ∃ cpu, path = msrDevice cpu
  | .cmosRd => flags = ⟨.rdonly,false⟩ ∧ path = nvramDevice
  | .cmosWr => flags = ⟨.wronly,false⟩ ∧ path = nvramDevice
  | .rdScom => flags = ⟨.rdonly,false⟩ ∧ ∃ chip, path = scomDevice chip
  | .wrScom => flags = ⟨.wronly,false⟩ ∧ ∃ chip, path = scomDevice chip
  | .cpuToChipid => flags = ⟨.rdonly,false⟩ ∧ ((∃ cpu, path = pirFile cpu) ∨ s.globbed = some path)
  | .cpuToEx => flags = ⟨.rdonly,false⟩ ∧ ∃ cpu, path = pirFile cpu
  | .pciList | .busyLoop | .rdtsc | .cpuid | .cpuList | .runon | .logicOp | .not | .shift => False

def busEntries : List Entry := [.smbusRead,.smbusWrite,.smbusProcessCall,.smbusWriteread]
def mappers : List Entry := [.mmioReadX,.mmioWriteX,.mmioDump]
def loaders : List Entry := [.mmioReadX,.mmioDump]
def seekers : List Entry := [.pciReadX,.pciWriteX,.ioReadX,.ioWriteX,.rdMsr,.wrMsr,.cmosRd,.cmosWr,.rdScom,.wrScom]
def readers : List Entry := [.pciReadX,.ioReadX,.rdMsr,.cmosRd,.rdScom,.cpuToChipid,.cpuToEx]
def writers : List Entry := [.pciWriteX,.ioWriteX,.wrMsr,.cmosWr,.wrScom]

-- What an entry asks of its environment. A request that needs a right is made
-- only once the right has been obtained.
def Entry.permits (b : Build) (entry : Entry) (s : Ledger) (c : Call) : Prop :=
  match c with
  | .stderr _ | .strerror | .close _ | .stale _ | .staleParams => True
  | .stdout _ => entry.prints = true
  | .open path flags => entry.opens b s path flags
  | .lseek .. => entry ∈ seekers
  | .read .. => entry ∈ readers
  | .write .. => entry ∈ writers
  | .ioctlSlave .. => entry ∈ busEntries
  | .ioctlSmbus _ args =>
    entry = .smbusRead ∧ args.readWrite = i2cSmbusRead ∨
    entry = .smbusWrite ∧ (args.readWrite = i2cSmbusWrite ∨ args.size = .quick) ∨
    entry = .smbusProcessCall ∧ (args.size = .procCall ∨ args.size = .blockProcCall)
  | .ioctlRdwr .. => entry = .smbusWriteread
  | .getpagesize | .munmap .. => entry ∈ mappers
  | .mmap _ prot _ _ => entry ∈ loaders ∧ prot = ⟨true,false⟩ ∨ entry = .mmioWriteX ∧ prot = ⟨true,true⟩
  | .load .. => entry ∈ loaders
  | .store .. => entry = .mmioWriteX
  | .fwrite _ => entry = .mmioDump
  | .iopl _ => entry ∈ [.ioReadX,.ioWriteX] ∧ b.arch = .x86
  | .portIn .. => entry = .ioReadX ∧ b.arch = .x86 ∧ s.granted = true
  | .portOut .. => entry = .ioWriteX ∧ b.arch = .x86 ∧ s.granted = true
  | .setaffinity _ => entry ∈ [.cpuid,.runon]
  | .cpuid .. => entry = .cpuid ∧ s.pinned = true
  | .execvp _ => entry = .runon ∧ s.pinned = true
  | .rdtsc => entry = .rdtsc
  | .gettimeofday => entry = .busyLoop
  | .sysconf => entry = .cpuList
  | .opendir path => entry = .pciList ∧ (path = sysfsBaseDir ∨ ∃ rest, path = procfsBaseDir ++ rest)
  | .closedir _ => entry = .pciList
  | .glob pattern => entry = .cpuToChipid ∧ ∃ core, pattern = nodePattern core
  | .readlink _ | .symlink .. | .unlink _ | .errnoIsEnoent => False

-- Where an entry leaves its defined behaviour even on a sane system: the klibc
-- replacement of CPU_SET has no bounds, and the endless loop is followed for
-- some rounds only.
def Entry.tolerates (b : Build) (entry : Entry) (reason : Fault) : Prop :=
  entry = .busyLoop ∧ reason = .unfinished ∨
  entry ∈ [.cpuid,.runon] ∧ b.libc = .klibc ∧ reason = .arrayIndex

structure Regime (b : Build) (entry : Entry) (rely : Event Sys → Prop) (fine : Fault → Prop) : Prop where
  own : ∀ reason, entry.tolerates b reason → fine reason
  block : ∀ (fd : Int) (args : I2cSmbusIoctlData) (reply : Int × I2cSmbusData),
    args.size ∈ [.blockData,.i2cBlockData,.blockProcCall] → rely ⟨.ioctlSmbus fd args,reply⟩ →
    34 < (reply.2 0).toNat → fine .arrayIndex
  pir : ∀ (fd : Int) (bytes : {bytes : List UInt8 // bytes.length ≤ 64}), rely ⟨.read fd 64,some bytes⟩ →
    ¬ PirEnds bytes.val → fine .pastNul

theorem regime_any (b : Build) (entry : Entry) : Regime b entry (fun _ => True) (fun _ => True) :=
  ⟨fun _ _ => trivial,fun _ _ _ _ _ _ => trivial,fun _ _ _ _ => trivial⟩

def Entry.contract (b : Build) (entry : Entry) (rely : Event Sys → Prop) (fine : Fault → Prop) : Contract Sys Fault Ledger :=
  ⟨Ledger.step,fun _ => rely,entry.permits b,fine⟩

end Iotools
