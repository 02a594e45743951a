import Iotools.Commands

namespace Iotools
open Bytes Numeral Interaction

def devPort : Text := "/dev/port".toList

-- Platform independent IO port access using the /dev/port device node. The
-- bytes read overlay the start of `data`; the descriptor stays open.
def ioIn (iobase : Int) (data : List UInt8) : Action (List UInt8) := do
  let fd ← ask (.open devPort ⟨.rdonly,false⟩)
  if fd < 0 then do
    complain (.openDevice devPort)
    return data
  else do
    if (← ask (.lseek fd iobase)) = -1 then do
      complain (.lseek iobase)
      ask (.close fd)
      return data
    else
      match ← ask (.read fd data.length) with
      | none => return data
      | some bytes => return bytes.val ++ data.drop bytes.val.length

def ioOut (iobase : Int) (data : List UInt8) : Action Unit := do
  let fd ← ask (.open devPort ⟨.wronly,false⟩)
  if fd < 0 then complain (.openDevice devPort)
  else do
    if (← ask (.lseek fd iobase)) = -1 then do
      complain (.lseek iobase)
      ask (.close fd)
    else do
      let _ ← ask (.write fd data)
      return ()

-- inb, inw and inl: the instruction on x86, where the port is an unsigned
-- short; elsewhere the emulation, whose variable starts at `initial`.
def portRead (b : Build) (size initial iobase : Nat) : Action Nat :=
  if b.arch = .x86 then do
    let data ← ask (.portIn size (iobase % 2 ^ 16))
    return decode b.order (List.ofFn data)
  else do
    let data ← ioIn (toInt iobase) (encode b.order size initial)
    return decode b.order data

def inb (b : Build) (iobase : Nat) : Action Nat := portRead b 1 0xff iobase
def inw (b : Build) (iobase : Nat) : Action Nat := portRead b 2 0xffff iobase
-- the emulation of inl starts from 0xffff, not from 0xffffffff
def inl (b : Build) (iobase : Nat) : Action Nat := portRead b 4 0xffff iobase

-- outb, outw and outl.
def portWrite (b : Build) (size value iobase : Nat) : Action Unit :=
  if b.arch = .x86 then ask (.portOut size value (iobase % 2 ^ 16))
  else ioOut (toInt iobase) (encode b.order size value)

def outb (b : Build) (value iobase : Nat) : Action Unit := portWrite b 1 value iobase
def outw (b : Build) (value iobase : Nat) : Action Unit := portWrite b 2 value iobase
def outl (b : Build) (value iobase : Nat) : Action Unit := portWrite b 4 value iobase

-- DO_READ of io_read_x.
def ioDoRead (size : Nat) (input : Action Nat) : Action Int := do
  let data ← input
  ask (.stdout ("0x".toList ++ hexLower (size * 2) data ++ "\n".toList))
  return 0

def ioReadX (b : Build) (argv : List Arg) (info : CmdInfo) : Action Int := do
  let iobase := (strtoulLong b 0 (← argAt argv 1)).1
  match getCommandSize info with
  | 8 => ioDoRead 1 (inb b iobase)
  | 16 => ioDoRead 2 (inw b iobase)
  | 32 => ioDoRead 4 (inl b iobase)
  | _ => do
    ask (.stderr .invalidIoRead)
    return -1

def ioWriteX (b : Build) (argv : List Arg) (info : CmdInfo) : Action Int := do
  let iobase := (strtoulLong b 0 (← argAt argv 1)).1
  let ldata := (strtoulLong b 0 (← argAt argv 2)).1
  match getCommandSize info with
  | 8 => do
    outb b (ldata % 2 ^ 8) iobase
    return 0
  | 16 => do
    outw b (ldata % 2 ^ 16) iobase
    return 0
  | 32 => do
    outl b (ldata % 2 ^ 32) iobase
    return 0
  | _ => do
    ask (.stderr .invalidIoWrite)
    return -1

end Iotools
