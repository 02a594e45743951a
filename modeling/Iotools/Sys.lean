import Iotools.Interaction
import Iotools.Platform
import Iotools.Diagnostics

namespace Iotools
open Bytes Numeral Interaction

inductive AccessMode where
  | rdonly | wronly | rdwr
  deriving DecidableEq, Repr

structure OpenFlags where
  mode : AccessMode
  sync : Bool
  deriving DecidableEq, Repr

structure Prot where
  read : Bool
  write : Bool
  deriving DecidableEq, Repr

-- I2C_SMBUS_BLOCK_MAX of linux-i2c-dev.h, and the sizes of the two unions.
def blockMax : Nat := 32
abbrev I2cSmbusData := Buffer 35
abbrev SmbusDtype := Buffer 34

-- The union is not empty: `byte` and `block[0]` are its first byte.
instance unionNonempty : NeZero 35 := ⟨by decide⟩

-- SMBus transaction types, the `size` of struct i2c_smbus_ioctl_data.
inductive Transaction where
  | quick | byte | byteData | wordData | procCall | blockData | blockProcCall | i2cBlockData
  deriving DecidableEq, Repr

-- struct i2c_smbus_ioctl_data; `data` is the content behind the pointer.
structure I2cSmbusIoctlData where
  readWrite : UInt8
  command : UInt8
  size : Transaction
  data : Option I2cSmbusData

-- struct i2c_msg; `buf` is the content behind the pointer, `len` bytes of it.
structure I2cMsg where
  addr : UInt8
  read : Bool
  len : Nat
  buf : List UInt8
  deriving DecidableEq

structure SmbusOpParams where
  fd : Int
  reg : UInt8
  i2cBus : UInt8
  address : UInt8
  readCount : UInt8
  len : Int
  data : SmbusDtype

-- Page sizes getpagesize() can return: powers of two that fit in an int.
structure PageSize where
  log : Nat
  fits : log ≤ 30
  deriving DecidableEq

def PageSize.bytes (page : PageSize) : Nat := 2 ^ page.log

structure Dirent where
  name : Text
  isDir : Bool
  deriving DecidableEq

-- Everything a command asks of its environment. Besides the system calls these
-- are the C library's output, the accesses to mapped memory, the port
-- instructions, and the stale content of locals that the code leaves
-- uninitialised.
inductive Call where
  | open (path : Text) (flags : OpenFlags)
  | close (fd : Int)
  | lseek (fd offset : Int)
  | read (fd : Int) (count : Nat)
  | write (fd : Int) (bytes : List UInt8)
  | ioctlSlave (fd : Int) (force : Bool) (address : UInt8)
  | ioctlSmbus (fd : Int) (args : I2cSmbusIoctlData)
  | ioctlRdwr (fd : Int) (first second : I2cMsg)
  | getpagesize
  | mmap (length : Nat) (prot : Prot) (fd : Int) (offset : Nat)
  | munmap (mem length : Nat)
  | load (mem : Nat) (offset : Int) (size : Nat)
  | store (mem : Nat) (offset : Int) (bytes : List UInt8)
  | portIn (size port : Nat)
  | portOut (size value port : Nat)
  | iopl (level : Nat)
  | stdout (text : Text)
  | fwrite (bytes : List UInt8)
  | stderr (message : Message)
  | strerror
  | errnoIsEnoent
  | readlink (path : Text)
  | symlink (target path : Text)
  | unlink (path : Text)
  | opendir (path : Text)
  | closedir (path : Text)
  | glob (pattern : Text)
  | gettimeofday
  | rdtsc
  | cpuid (function index : Nat)
  | sysconf
  | setaffinity (mask : Buffer 128)
  | execvp (argv : List Text)
  | staleParams
  | stale (size : Nat)

-- read: the bytes transferred, or `none` for -1. mmap: a mapping, or `none` for
-- MAP_FAILED. ioctlSmbus: the result and the union afterwards. ioctlRdwr: the
-- result and the bytes the device supplied for the second message.
@[reducible] def Call.Answer : Call → Type
  | .open .. => Int
  | .close _ => Unit
  | .lseek .. => Int
  | .read _ count => Option {bytes : List UInt8 // bytes.length ≤ count}
  | .write .. => Int
  | .ioctlSlave .. => Int
  | .ioctlSmbus .. => Int × I2cSmbusData
  | .ioctlRdwr .. => Int × List UInt8
  | .getpagesize => PageSize
  | .mmap .. => Option Nat
  | .munmap .. => Unit
  | .load _ _ size => Buffer size
  | .store .. => Unit
  | .portIn size _ => Buffer size
  | .portOut .. => Unit
  | .iopl _ => Int
  | .stdout _ => Unit
  | .fwrite _ => Nat
  | .stderr _ => Unit
  | .strerror => Text
  | .errnoIsEnoent => Bool
  | .readlink _ => Option Text
  | .symlink .. => Int
  | .unlink _ => Int
  | .opendir _ => Option (List Dirent)
  | .closedir _ => Unit
  | .glob _ => Except Int Text
  | .gettimeofday => Int × Int
  | .rdtsc => UInt64
  | .cpuid .. => UInt32 × UInt32 × UInt32 × UInt32
  | .sysconf => Int
  | .setaffinity _ => Int
  | .execvp _ => Unit
  | .staleParams => SmbusOpParams
  | .stale size => Buffer size

abbrev Sys : Interface := ⟨Call,Call.Answer⟩

-- Answers of an environment in which every call succeeds: files are empty,
-- memory and devices read as zero, and a page has 4096 bytes.
def Call.succeeds : (c : Call) → c.Answer
  | .open .. => (3 : Int)
  | .close _ => ()
  | .lseek _ offset => offset
  | .read .. => some ⟨[],Nat.zero_le _⟩
  | .write _ bytes => (bytes.length : Int)
  | .ioctlSlave .. => (0 : Int)
  | .ioctlSmbus .. => ((0 : Int),(Buffer.zero : I2cSmbusData))
  | .ioctlRdwr _ _ second => ((2 : Int),List.replicate second.len (0 : UInt8))
  | .getpagesize => ⟨12,by decide⟩
  | .mmap .. => some (0 : Nat)
  | .munmap .. => ()
  | .load .. => Buffer.zero
  | .store .. => ()
  | .portIn .. => Buffer.zero
  | .portOut .. => ()
  | .iopl _ => (0 : Int)
  | .stdout _ => ()
  | .fwrite bytes => bytes.length
  | .stderr _ => ()
  | .strerror => ([] : Text)
  | .errnoIsEnoent => false
  | .readlink _ => some ([] : Text)
  | .symlink .. => (0 : Int)
  | .unlink _ => (0 : Int)
  | .opendir _ => some ([] : List Dirent)
  | .closedir _ => ()
  | .glob _ => Except.ok ([] : Text)
  | .gettimeofday => ((0 : Int),(0 : Int))
  | .rdtsc => (0 : UInt64)
  | .cpuid .. => ((0 : UInt32),(0 : UInt32),(0 : UInt32),(0 : UInt32))
  | .sysconf => (1 : Int)
  | .setaffinity _ => (0 : Int)
  | .execvp _ => ()
  | .staleParams => ⟨0,0,0,0,0,0,Buffer.zero⟩
  | .stale _ => Buffer.zero

def smooth : Kernel Sys Unit := fun c s => (c.succeeds,s)

def answering (data : I2cSmbusData) : Kernel Sys Unit := fun c s =>
  match c with
  | .ioctlSmbus .. => (((0 : Int),data),s)
  | c => (c.succeeds,s)

-- Where the code would read or write outside what it owns.
inductive Fault where
  | argv (index : Nat)
  | nullPrivdata
  | wrongPrivdata
  | nullPointer
  | pastNul
  | arrayIndex
  -- not an error of the code: a loop was cut off before it ended
  | unfinished
  deriving DecidableEq, Repr

abbrev Action := Prog Sys Fault

abbrev ask (c : Call) : Action c.Answer := .call c .done

-- Parsing helpers of the code complain on stderr at most once before they
-- fail, so they are functions whose error is that complaint.
inductive Stop where
  | complain (message : Message)
  | fault (reason : Fault)
  deriving DecidableEq

abbrev Parse := Except Stop

theorem parse_bind_ok {first : Parse α} {next : α → Parse β} :
    (first >>= next) = .ok result ↔ ∃ value, first = .ok value ∧ next value = .ok result := by
  cases first <;> simp [bind,Except.bind]

-- Run a parsing helper: print its complaint, then `none` stands for -1.
def report (parsed : Parse α) : Action (Option α) :=
  match parsed with
  | .ok value => .done (some value)
  | .error (.complain message) => .call (.stderr message) (fun _ => .done none)
  | .error (.fault reason) => .fault reason

-- fprintf(stderr, ..., strerror(errno)) with the message built from the text.
def complain (message : Text → Message) : Action Unit :=
  .call .strerror (fun err => .call (.stderr (message err)) .done)

-- `argv[index]`; argc is the length of the vector.
def argAt (argv : List Arg) (index : Nat) : Action Text :=
  match argv[index]? with
  | some arg => .done arg.text
  | none => .fault (.argv index)

theorem argAt_of_lt (argv : List Arg) (index : Nat) (inside : index < argv.length) :
    argAt argv index = .done argv[index].text := by
  simp [argAt,inside]

end Iotools
