import Iotools.Commands

namespace Iotools
open Numeral Interaction

-- Widening an int to unsigned long long.
def toUlonglong (value : Int) : Nat := (value % 2 ^ 64).toNat

def printHex (value : Nat) : Action Unit := ask (.stdout ("0x".toList ++ hexLower 0 value ++ "\n".toList))

def flag (condition : Bool) : Int := if condition then 1 else 0

-- One pass of the loop of logic_op: the new result and the new return code;
-- `none` in the default branch.
def logicStep (op : LogicOp) (result val : Nat) : Option (Nat × Int) :=
  match op with
  | .or => some (result ||| val,flag ((result ||| val) = 0))
  | .and => some (result &&& val,flag ((result &&& val) = 0))
  | .xor => some (result ^^^ val,flag ((result ^^^ val) = 0))
  | .bts =>
    let mask := toUlonglong (intBit val)
    some (result ||| mask,flag ((result &&& mask) ≠ 0))
  | .btr =>
    let mask := toUlonglong (intBit val)
    some (result &&& (2 ^ 64 - 1 - mask),flag ((result &&& mask) ≠ 0))
  | .shl | .shr => none

-- The loop `while (argc)`: `argc` values are left, the next at argv[position].
def logicLoop (argv : List Arg) (info : CmdInfo) : Nat → Nat → Nat → Int → Action Int
  | 0,_,result,rc => do
    printHex result
    return rc
  | argc+1,position,result,_ => do
    let val := (strtoull 0 (← argAt argv position)).1
    match logicStep (← logicInfoOf info) result val with
    | none => do
      ask (.stderr .invalidLogicOp)
      return -1
    | some (result,rc) => logicLoop argv info argc (position + 1) result rc

-- Strip off command name and obtain source value to be operated on.
def logicOp (argv : List Arg) (info : CmdInfo) : Action Int := do
  let result := (strtoull 0 (← argAt argv 1)).1
  logicLoop argv info (argv.length - 2) 2 result 0

def not (argv : List Arg) (_ : CmdInfo) : Action Int := do
  let result := 2 ^ 64 - 1 - (strtoull 0 (← argAt argv 1)).1
  printHex result
  return flag (result = 0)

-- The count is masked to six bits as x86 does; C leaves 64 and more undefined,
-- and powerpc's sld and srd give 0.
def shift (b : Build) (argv : List Arg) (info : CmdInfo) : Action Int := do
  let val := (strtoull 0 (← argAt argv 1)).1
  let count := (strtoulLong b 0 (← argAt argv 2)).1 % 64
  match ← logicInfoOf info with
  | .shl => do
    printHex (val * 2 ^ count % 2 ^ 64)
    return 0
  | .shr => do
    printHex (val / 2 ^ count)
    return 0
  | _ => do
    ask (.stderr .invalidShift)
    return -1

end Iotools
