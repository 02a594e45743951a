import Iotools.Numeral

namespace Iotools
open Numeral

-- What the commands report on stderr: one constructor per format string, its
-- arguments as fields. `err` is the text of strerror(errno).
inductive Message where
  -- commands.c and iotools.c
  | usage (name synopsis : Text)
  | iopl
  | noBinary
  | linkNotCreated (link binary : Text)
  | linkNotRemoved (link err : Text)
  | helpText (name : Text)
  | notSupported (command : Text)
  -- smbus_rw.c
  | i2cOpen (err : Text)
  | i2cAttach (bus address : UInt8) (err : Text)
  | trailingJunk (arg : Text)
  | isLongMax (arg : Text)
  | notAByte (arg : Text)
  | notZeroOrOne (arg : Text)
  | dataLength (len : Int)
  | dataTooLong
  | unknownOperandSize (arg : Text)
  | invalidAdapter
  | invalidAddress
  | invalidRegister
  | openSlave
  | illegalReadSize
  | illegalWriteSize
  | readRegister (reg : UInt8) (err : Text)
  | readDevice (address : UInt8) (err : Text)
  | writeRegister (reg : UInt8) (err : Text)
  | writeDevice (address : UInt8) (err : Text)
  | setAddress (address : UInt8) (err : Text)
  | invalidValue (name value : Text)
  | processCall (err : Text)
  | invalidReadCount (count : Text)
  | readCountTooBig (value : Text)
  | i2cRdwr (err : Text)
  -- mmio_rw.c
  | openMem (err : Text)
  | mmapMem (err : Text)
  | notAtomic
  | invalidMmioRead
  | invalidMmioWrite
  -- pci_rw.c
  | openPci (segment bus device function : Nat) (err : Text)
  | invalidPciEntry
  | opendir (path err : Text)
  -- io_rw.c
  | invalidIoRead
  | invalidIoWrite
  -- shared by the register files: io, msr, cmos, scom and pci
  | openDevice (path err : Text)
  | lseek (position : Int) (err : Text)
  | read (err : Text)
  | write (err : Text)
  -- misc.c, logic.c, cmos_rw.c and scom.c
  | perror (what err : Text)
  | cpuid
  | noSysconf
  | invalidLogicOp
  | invalidShift
  | belowNvram
  | glob (pattern : Text) (code : Int)
  deriving DecidableEq

def byteHex (value : UInt8) : Text := "0x".toList ++ hexUpper 2 value.toNat

-- usage() of iotools.c
def usageText (name : Text) : Text :=
  "usage: ".toList ++ name ++ (" COMMAND\n  COMMANDS:\n    --make-links\n    --clean-links\n" ++
    "    --list-cmds\n    -v --version\n").toList

def Message.text : Message → Text
  | .usage name synopsis => "usage: ".toList ++ name ++ " ".toList ++ synopsis ++ "\n".toList
  | .iopl => "can't set io privilege level\n".toList
  | .noBinary => "Unable to locate currently running binary.\n".toList
  | .linkNotCreated link binary => "Unable to create link: ".toList ++ link ++ " -> ".toList ++ binary ++ "\n".toList
  | .linkNotRemoved link err => "Unable to remove link: ".toList ++ link ++ ": ".toList ++ err ++ "\n".toList
  | .helpText name => usageText name
  | .notSupported command => "'".toList ++ command ++ "' sub-command not supported by iotools\n".toList
  | .i2cOpen err => "Couldn't open i2c device file: ".toList ++ err ++ "\n".toList
  | .i2cAttach bus address err => "Could not attach to i2c bus ".toList ++ decimal bus.toNat ++
      " slave address ".toList ++ decimal address.toNat ++ ": ".toList ++ err ++ "\n".toList
  | .trailingJunk arg => arg ++ ": is followed by junk\n".toList
  | .isLongMax arg => arg ++ ": is LONG_MAX\n".toList
  | .notAByte arg => arg ++ ": won't fit in a byte\n".toList
  | .notZeroOrOne arg => arg ++ ": isn't 0 or 1\n".toList
  | .dataLength len => "data length (".toList ++ decimal len ++ ") is 0 or odd\n".toList
  | .dataTooLong => "data has more than 32 bytes\n".toList
  | .unknownOperandSize arg => arg ++ ": unknown operand size\n".toList
  | .invalidAdapter => "invalid adapter value\n".toList
  | .invalidAddress => "invalid address value\n".toList
  | .invalidRegister => "invalid register value\n".toList
  | .openSlave => "can't open slave\n".toList
  | .illegalReadSize => "Illegal SMBus size for read operation.\n".toList
  | .illegalWriteSize => "Illegal SMBus size for write operation.\n".toList
  | .readRegister reg err => "can't read register ".toList ++ byteHex reg ++ ", ".toList ++ err ++ "\n".toList
  | .readDevice address err => "can't read from device ".toList ++ byteHex address ++ ", ".toList ++ err ++ "\n".toList
  | .writeRegister reg err => "can't write register ".toList ++ byteHex reg ++ ", ".toList ++ err ++ "\n".toList
  | .writeDevice address err => "can't write to device ".toList ++ byteHex address ++ ", ".toList ++ err ++ "\n".toList
  | .setAddress address err => "can't set address ".toList ++ byteHex address ++ ", ".toList ++ err ++ "\n".toList
  | .invalidValue name value => name ++ ": ".toList ++ value ++ ": invalid value to write\n".toList
  | .processCall err => "SMBUS Process call failed: ".toList ++ err ++ ".\n".toList
  | .invalidReadCount count => "invalid read count ".toList ++ count ++ ".\n".toList
  | .readCountTooBig value => "read count ".toList ++ value ++ " > 32.\n".toList
  | .i2cRdwr err => "I2C_RDWR failed: ".toList ++ err ++ "\n".toList
  | .openMem err => "open(/dev/mem): ".toList ++ err ++ "\n".toList
  | .mmapMem err => "mmap(/dev/mem): ".toList ++ err ++ "\n".toList
  | .notAtomic => "warning: 64 bit operations might not be atomic on 32 bit builds\n".toList
  | .invalidMmioRead => "invalid mmio_read parameter\n".toList
  | .invalidMmioWrite => "invalid mmio_write parameter\n".toList
  | .openPci segment bus device function err => "Unable to open file to access PCI device '".toList ++
      hexLower 4 segment ++ ":".toList ++ hexLower 2 bus ++ ":".toList ++ hexLower 2 device ++ ".".toList ++
      hexLower 0 function ++ "': ".toList ++ err ++ "\n".toList
  | .invalidPciEntry => "invalid pci_read entry\n".toList
  | .opendir path err => "opendir(".toList ++ path ++ "): ".toList ++ err ++ "\n".toList
  | .invalidIoRead => "invalid io_read entry\n".toList
  | .invalidIoWrite => "invalid io_write entry\n".toList
  | .openDevice path err => "open(\"".toList ++ path ++ "\"): ".toList ++ err ++ "\n".toList
  | .lseek position err => "lseek(".toList ++ decimal position ++ "): ".toList ++ err ++ "\n".toList
  | .read err => "read(): ".toList ++ err ++ "\n".toList
  | .write err => "write(): ".toList ++ err ++ "\n".toList
  | .perror what err => what ++ ": ".toList ++ err ++ "\n".toList
  | .cpuid => "Could not obtain cpuid result.\n".toList
  | .noSysconf => "Operation not supported by library.\n".toList
  | .invalidLogicOp => "Invalid logic op\n".toList
  | .invalidShift => "Invalid shift operation\n".toList
  | .belowNvram => "can't read bytes below 14\n".toList
  | .glob pattern code => "glob(\"".toList ++ pattern ++ "\"): ".toList ++ decimal code ++ "\n".toList

-- The reports of the default branches of the size and operation switches: a
-- command whose table entry is sound never makes one of them.
def Message.isDefaultBranch : Message → Bool
  | .unknownOperandSize _ | .illegalReadSize | .illegalWriteSize | .invalidMmioRead | .invalidMmioWrite
  | .invalidPciEntry | .invalidIoRead | .invalidIoWrite | .invalidLogicOp | .invalidShift => true
  | _ => false

end Iotools
