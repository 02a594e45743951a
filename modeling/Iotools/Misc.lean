import Iotools.Commands

namespace Iotools
open Bytes Numeral Interaction

-- cpu_set_t: 1024 bits in words of type unsigned long.
abbrev CpuSet := Buffer 128

def wordBytes (b : Build) : Nat := b.long.bits / 8

-- set->__bits[index] |= bit
def CpuSet.orWord (b : Build) (set : CpuSet) (index bit : Nat) : CpuSet :=
  let start := index * wordBytes b
  set.patch start (encode b.order (wordBytes b) (decode b.order (set.slice start (wordBytes b)) ||| bit))

-- The klibc replacement clears sizeof(set) bytes, the size of a pointer.
def cpuZero (b : Build) (set : CpuSet) : CpuSet :=
  match b.libc with
  | .glibc => Buffer.zero
  | .klibc => set.patch 0 (List.replicate (wordBytes b) 0)

-- `cpu` is converted to an unsigned long. glibc ignores cpus outside the set;
-- the klibc replacement indexes with them, and shifts an int.
def cpuSet (b : Build) (cpu : Int) (set : CpuSet) : Action CpuSet :=
  let bits := b.long.bits
  let wide := (cpu % 2 ^ bits).toNat
  match b.libc with
  | .glibc =>
    if wide < 1024 then return CpuSet.orWord b set (wide / bits) (2 ^ (wide % bits)) else return set
  | .klibc =>
    if wide / bits < 1024 / bits then
      return CpuSet.orWord b set (wide / bits) (intBit (wide % bits) % 2 ^ bits).toNat
    else .fault .arrayIndex

def setCpuAffinity (b : Build) (cpu : Int) : Action Int := do
  let stale ← ask (.stale 128)
  let set ← cpuSet b cpu (cpuZero b stale)
  if (← ask (.setaffinity set)) < 0 then do
    complain (.perror "sched_setaffinity()".toList)
    return -1
  else return 0

-- Elapsed time as the loop computes it, in an unsigned int.
def elapsed (t0 t1 : Int × Int) : Nat :=
  toUnsigned (toUnsigned ((t1.1 - t0.1) * 1000000) + (t1.2 - t0.2))

-- The endless loop of busy_loop, followed for `fuel` rounds.
def busyRounds (reps : Int) : Nat → Nat → Int → Int × Int → Action Int
  | 0,_,_,_ => .fault .unfinished
  | fuel+1,count,printed,t0 => do
    if printed = reps then return 0
    else
      let count : Nat := (count + 1) % 2 ^ 64
      if count % 16384 = 0 then do
        let t1 ← ask .gettimeofday
        if 1000000 ≤ elapsed t0 t1 then do
          ask (.stdout (decimal count ++ "\n".toList))
          let t0 ← ask .gettimeofday
          busyRounds reps fuel 0 (if reps ≠ -1 then toInt (printed + 1) else printed) t0
        else busyRounds reps fuel count printed t0
      else busyRounds reps fuel count printed t0

-- atoi is strtol with base 10, narrowed to int.
def busyLoop (b : Build) (fuel : Nat) (argv : List Arg) (_ : CmdInfo) : Action Int := do
  let reps ← if argv.length = 2 then do pure (toInt (strtolLong b 10 (← argAt argv 1)).1) else pure (-1)
  let t0 ← ask .gettimeofday
  busyRounds reps fuel 0 0 t0

def rdtsc (_ : List Arg) (_ : CmdInfo) : Action Int := do
  let tsc ← ask .rdtsc
  ask (.stdout ("0x".toList ++ hexLower 16 tsc.toNat ++ "\n".toList))
  return 0

-- The registers hold the low 32 bits of the two operands.
def cpuidInline (b : Build) (cpu : Int) (function index : Nat) :
    Action (Option (UInt32 × UInt32 × UInt32 × UInt32)) := do
  if (← setCpuAffinity b cpu) < 0 then return none
  else do
    let data ← ask (.cpuid (function % 2 ^ 32) (index % 2 ^ 32))
    return some data

def word (value : UInt32) : Text := "0x".toList ++ hexLower 8 value.toNat

def cpuid (b : Build) (argv : List Arg) (_ : CmdInfo) : Action Int := do
  let cpu := toInt (strtolLong b 0 (← argAt argv 1)).1
  let function := (strtoulLong b 0 (← argAt argv 2)).1
  let index ← if argv.length = 4 then do pure (strtoulLong b 0 (← argAt argv 3)).1 else pure 0
  match ← cpuidInline b cpu function index with
  | none => do
    ask (.stderr .cpuid)
    return -1
  | some (eax,ebx,ecx,edx) => do
    ask (.stdout (word eax ++ " ".toList ++ word ebx ++ " ".toList ++ word ecx ++ " ".toList ++ word edx ++
      "\n".toList))
    return 0

def listCpus : Nat → Nat → Action Unit
  | _,0 => return ()
  | i,left+1 => do
    ask (.stdout (decimal i ++ "\n".toList))
    listCpus (i + 1) left

-- klibc defines no _SC_NPROCESSORS_ONLN.
def cpuList (b : Build) (_ : List Arg) (_ : CmdInfo) : Action Int :=
  match b.libc with
  | .glibc => do
    let ncpus := toInt (← ask .sysconf)
    listCpus 0 ncpus.toNat
    return 0
  | .klibc => do
    ask (.stderr .noSysconf)
    return -1

-- argv[1]: cpu to run command on; argv[2] and on are handed to exec, which
-- returns only when it failed.
def runon (b : Build) (argv : List Arg) (_ : CmdInfo) : Action Int := do
  let argv := argv.drop 1
  let cpu := (strtoulLong b 0 (← argAt argv 0)).1
  let argv := argv.drop 1
  if (← setCpuAffinity b (toInt cpu)) < 0 then return -1
  else do
    let _ ← argAt argv 0
    ask (.execvp (argv.map Arg.text))
    complain (.perror "exec".toList)
    return -1

end Iotools
