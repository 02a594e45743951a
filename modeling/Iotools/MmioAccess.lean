import Mathlib.Data.Nat.Bitwise
import Iotools.Traces
import Iotools.Tables

namespace Iotools
open Bytes Numeral Interaction

theorem and_high_mask (small : addr < 2 ^ 64) (le : k ≤ 64) : addr &&& (2 ^ 64 - 2 ^ k) = addr / 2 ^ k * 2 ^ k := by
  have mask : 2 ^ 64 - 2 ^ k = (2 ^ (64 - k) - 1) <<< k := by
    rw [Nat.shiftLeft_eq,Nat.sub_mul,one_mul,← pow_add,Nat.sub_add_cancel le]
  rw [mask,← Nat.shiftLeft_eq,← Nat.shiftRight_eq_div_pow]
  apply Nat.eq_of_testBit_eq
  intro i
  rw [Nat.testBit_and,Nat.testBit_shiftLeft,Nat.testBit_shiftLeft,Nat.testBit_two_pow_sub_one,Nat.testBit_shiftRight]
  by_cases low : k ≤ i
  · have back : k + (i - k) = i := by omega
    by_cases high : i < 64
    · have inside : i - k < 64 - k := by omega
      simp [low,inside,back]
    · have outside : ¬ i - k < 64 - k := by omega
      have clear : addr.testBit i = false :=
        Nat.testBit_lt_two_pow (lt_of_lt_of_le small (Nat.pow_le_pow_right (by decide) (by omega)))
      simp [outside,back,clear]
  · simp [low]

theorem pageBase_eq (page : PageSize) (small : addr < 2 ^ 64) : pageBase page addr = addr / page.bytes * page.bytes := by
  have fits := page.fits
  have positive := Nat.two_pow_pos page.log
  have mask : 2 ^ 64 - 1 - (page.bytes - 1) = 2 ^ 64 - 2 ^ page.log := by unfold PageSize.bytes; omega
  rw [pageBase,mask,and_high_mask small (by omega)]
  rfl

theorem pageOffset_eq (page : PageSize) (addr : Nat) : pageOffset page addr = (addr % page.bytes : Nat) := by
  have small : page.bytes ≤ 2 ^ 30 := Nat.pow_le_pow_right (by decide) page.fits
  have below : addr % page.bytes < page.bytes := Nat.mod_lt _ (Nat.two_pow_pos page.log)
  rw [pageOffset,PageSize.bytes,Nat.and_two_pow_sub_one_eq_mod]
  exact toInt_of_small (by unfold intMax; unfold PageSize.bytes at *; omega)

theorem page_split (page : PageSize) (small : addr < 2 ^ 64) :
    pageBase page addr % page.bytes = 0 ∧ pageBase page addr + pageOffset page addr = (addr : Int) ∧
    0 ≤ pageOffset page addr ∧ pageOffset page addr < page.bytes := by
  have below : addr % page.bytes < page.bytes := Nat.mod_lt _ (Nat.two_pow_pos page.log)
  have whole := Nat.div_add_mod' addr page.bytes
  rw [pageBase_eq page small,pageOffset_eq]
  refine ⟨Nat.mul_mod_left _ _,?_,?_,?_⟩ <;> omega

theorem mapping_length (page : PageSize) (addr : Nat) (small : bytes ≤ 2 ^ 30) :
    (toUnsigned ((bytes % 2 ^ 32 : Nat) + pageOffset page addr) : Int) = bytes + pageOffset page addr := by
  have bound : page.bytes ≤ 2 ^ 30 := Nat.pow_le_pow_right (by decide) page.fits
  have below : addr % page.bytes < page.bytes := Nat.mod_lt _ (Nat.two_pow_pos page.log)
  rw [pageOffset_eq]
  unfold toUnsigned
  omega

-- /dev/mem as a byte memory: the file that is open, with its descriptor, and
-- the mapping made of it, a window onto the memory. The machine decides which
-- open and mmap calls it grants, and refuses an unaligned offset.
structure Window where
  mem : Nat
  base : Nat
  length : Nat
  prot : Prot

structure DevMem where
  memory : Memory
  opened : Option (Int × OpenFlags)
  window : Option Window

structure Machine where
  page : PageSize
  opens : OpenFlags → Int
  maps : Nat → Nat → Option Nat

-- A shared mapping is made of a file that is open for reading, and for writing
-- too if it is to be written.
def OpenFlags.allows (flags : OpenFlags) (prot : Prot) : Bool :=
  flags.mode ≠ .wronly && (!prot.write || flags.mode = .rdwr)

def Machine.mmap (machine : Machine) (opened : Option (Int × OpenFlags)) (length : Nat) (prot : Prot) (fd : Int) (base : Nat) :
    Option Nat :=
  if opened.any (fun file => file.1 = fd && file.2.allows prot) = true ∧ base % machine.page.bytes = 0 then
    machine.maps length base
  else none

def DevMem.physical (s : DevMem) (uses : Prot → Bool) (mem : Nat) (offset : Int) (size : Nat) : Option Nat :=
  match s.window with
  | none => none
  | some w =>
    if uses w.prot = true ∧ mem = w.mem ∧ 0 ≤ offset ∧ offset + size ≤ w.length then some (w.base + offset.toNat) else none

def Machine.kernel (machine : Machine) : Kernel Sys DevMem := fun c s =>
  match c with
  | .getpagesize => (machine.page,s)
  | .open path flags =>
    let fd := if path = "/dev/mem".toList then machine.opens flags else -1
    (fd,{s with opened := if fd < 0 then s.opened else some (fd,flags)})
  | .close fd => ((),{s with opened := s.opened.filter (fun file => file.1 ≠ fd)})
  | .mmap length prot fd base =>
    match machine.mmap s.opened length prot fd base with
    | none => (none,s)
    | some mem => (some mem,{s with window := some ⟨mem,base,length,prot⟩})
  | .munmap mem length => ((),{s with window := s.window.filter (fun w => w.mem ≠ mem || w.length ≠ length)})
  | .load mem offset size =>
    match s.physical Prot.read mem offset size with
    | none => (Buffer.zero,s)
    | some address => (fun i => s.memory (address + i),s)
  | .store mem offset bytes =>
    match s.physical Prot.write mem offset bytes.length with
    | none => ((),s)
    | some address => ((),{s with memory := s.memory.store address bytes})
  | c => (c.succeeds,s)

-- Every access to mapped memory goes through a mapping whose base is aligned,
-- meets the address at an offset below the page size, and stays in the mapping.
def AccessesAt (page : PageSize) (addr : Nat) (trace : Trace Sys) : Prop :=
  ∀ (mem : Nat) (offset : Int) (size : Nat),
    (∃ data, ⟨.load mem offset size,data⟩ ∈ trace) ∨
      (∃ bytes reply, ⟨.store mem offset bytes,reply⟩ ∈ trace ∧ bytes.length = size) →
    ∃ (length : Nat) (prot : Prot) (fd : Int) (base : Nat), ⟨.mmap length prot fd base,some mem⟩ ∈ trace ∧
      base % page.bytes = 0 ∧ base + offset = (addr : Int) ∧ 0 ≤ offset ∧ offset < page.bytes ∧
      offset + (size : Int) ≤ (length : Int)

section Granted
variable (machine : Machine) {addr : Nat} (small : addr < 2 ^ 64)

-- What the machine is asked for in order to access 8 bytes at an address, and
-- the mapping that results when it grants it.
def Machine.length (machine : Machine) (addr : Nat) : Nat :=
  toUnsigned ((sizeofDataStore % 2 ^ 32 : Nat) + pageOffset machine.page addr)

def Machine.grants (machine : Machine) (flags : OpenFlags) (addr : Nat) : Option Nat :=
  if machine.opens flags < 0 then none else machine.maps (machine.length addr) (pageBase machine.page addr)

def Machine.mapping (machine : Machine) (flags : OpenFlags) (addr mem : Nat) : MmapInfo :=
  ⟨machine.opens flags,mem,pageOffset machine.page addr,machine.length addr,pageBase machine.page addr⟩

def Machine.window (machine : Machine) (flags : OpenFlags) (addr mem : Nat) : Window :=
  ⟨mem,pageBase machine.page addr,machine.length addr,flags.prot⟩

def Machine.mapped (machine : Machine) (flags : OpenFlags) (addr mem : Nat) (memory : Memory) : DevMem :=
  ⟨memory,some (machine.opens flags,flags),some (machine.window flags addr mem)⟩

def Machine.opening (machine : Machine) (flags : OpenFlags) (addr mem : Nat) : Trace Sys :=
  [⟨.getpagesize,machine.page⟩,⟨.open "/dev/mem".toList flags,machine.opens flags⟩,
    ⟨.mmap (machine.length addr) flags.prot (machine.opens flags) (pageBase machine.page addr),some mem⟩]

theorem closeMapping_exec (memory : Memory) (flags : OpenFlags) (window : Window) (mapping : MmapInfo)
    (same : mapping.mem = window.mem ∧ mapping.length = window.length) :
    (closeMapping mapping).exec machine.kernel ⟨memory,some (mapping.fd,flags),some window⟩ =
      ⟨[⟨.munmap mapping.mem mapping.length,()⟩,⟨.close mapping.fd,()⟩],.ok (),⟨memory,none,none⟩⟩ := by
  simp [closeMapping,Prog.exec_call,Machine.kernel,same.1,same.2]

theorem closeMapping_mapped (flags : OpenFlags) (addr mem : Nat) (memory : Memory) :
    (closeMapping (machine.mapping flags addr mem)).exec machine.kernel (machine.mapped flags addr mem memory) =
      ⟨[⟨.munmap mem (machine.length addr),()⟩,⟨.close (machine.opens flags),()⟩],.ok (),⟨memory,none,none⟩⟩ := by
  unfold Machine.mapping Machine.mapped Machine.window
  generalize machine.length addr = length
  exact closeMapping_exec machine memory flags ⟨mem,_,length,_⟩ ⟨machine.opens flags,mem,_,length,_⟩ ⟨rfl,rfl⟩

theorem allows_prot {flags : OpenFlags} (readable : flags.mode ≠ .wronly) : flags.allows flags.prot = true := by
  obtain ⟨mode,sync⟩ := flags
  cases mode with
  | wronly => exact absurd rfl readable
  | _ => rfl

theorem openMapping_granted {flags : OpenFlags} (readable : flags.mode ≠ .wronly) (small : addr < 2 ^ 64)
    (opens : ¬ machine.opens flags < 0)
    (maps : machine.maps (toUnsigned ((bytes % 2 ^ 32 : Nat) + pageOffset machine.page addr)) (pageBase machine.page addr) = some mem)
    (s : DevMem) :
    let length := toUnsigned ((bytes % 2 ^ 32 : Nat) + pageOffset machine.page addr)
    (openMapping addr flags bytes).exec machine.kernel s =
      ⟨[⟨.getpagesize,machine.page⟩,⟨.open "/dev/mem".toList flags,machine.opens flags⟩,
          ⟨.mmap length flags.prot (machine.opens flags) (pageBase machine.page addr),some mem⟩],
        .ok (some ⟨machine.opens flags,mem,pageOffset machine.page addr,length,pageBase machine.page addr⟩),
        ⟨s.memory,some (machine.opens flags,flags),some ⟨mem,pageBase machine.page addr,length,flags.prot⟩⟩⟩ := by
  intro length
  have aligned := (page_split machine.page small).1
  have opened : machine.kernel (.open "/dev/mem".toList flags) s =
      (machine.opens flags,{s with opened := some (machine.opens flags,flags)}) := by
    simp only [Machine.kernel,if_true,if_neg opens]
  have mapped : machine.kernel (.mmap length flags.prot (machine.opens flags) (pageBase machine.page addr))
      {s with opened := some (machine.opens flags,flags)} =
      (some mem,⟨s.memory,some (machine.opens flags,flags),some ⟨mem,pageBase machine.page addr,length,flags.prot⟩⟩) := by
    have granted : machine.maps length (pageBase machine.page addr) = some mem := maps
    simp [Machine.kernel,Machine.mmap,aligned,allows_prot readable,granted]
  unfold openMapping
  rw [Prog.call_bind,Prog.exec_step (show machine.kernel .getpagesize s = (machine.page,s) from rfl)]
  rw [Prog.done_bind,Prog.call_bind,Prog.exec_step opened]
  rw [Prog.done_bind,if_neg opens,Prog.call_bind,Prog.exec_step mapped]
  rfl

include small

theorem openMapping_exec {flags : OpenFlags} (readable : flags.mode ≠ .wronly) (granted : machine.grants flags addr = some mem)
    (s : DevMem) :
    (openMapping addr flags sizeofDataStore).exec machine.kernel s =
      ⟨machine.opening flags addr mem,.ok (some (machine.mapping flags addr mem)),machine.mapped flags addr mem s.memory⟩ := by
  unfold Machine.grants at granted
  split at granted
  · cases granted
  · rename_i opens
    exact openMapping_granted machine readable small opens granted s

theorem window_reaches {size : Nat} (fits : size ≤ 8) :
    0 ≤ pageOffset machine.page addr ∧ pageOffset machine.page addr + size ≤ machine.length addr := by
  have split := page_split machine.page small
  have length := mapping_length machine.page addr (show sizeofDataStore ≤ 2 ^ 30 by decide)
  unfold Machine.length sizeofDataStore at *
  omega

theorem physical_window {uses : Prot → Bool} {flags : OpenFlags} (usable : uses flags.prot = true) (memory : Memory) (mem : Nat)
    (fits : size ≤ 8) :
    (machine.mapped flags addr mem memory).physical uses mem (pageOffset machine.page addr) size = some addr := by
  have split := page_split machine.page small
  have reach := window_reaches machine small fits
  simp only [DevMem.physical,Machine.mapped,Machine.window]
  rw [if_pos ⟨usable,trivial,reach⟩]
  simp only [Option.some.injEq]
  omega

theorem doWrite_exec (fits : size ≤ 8) (b : Build) {flags : OpenFlags} (usable : flags.prot.write = true) (value : Nat)
    (memory : Memory) :
    (mmioDoWrite b (machine.mapping flags addr mem) size value).exec machine.kernel (machine.mapped flags addr mem memory) =
      ⟨[⟨.store mem (pageOffset machine.page addr) (encode b.order size value),()⟩],.ok 0,
        machine.mapped flags addr mem (memory.store addr (encode b.order size value))⟩ := by
  have target := physical_window machine small usable memory mem
    (show (encode b.order size value).length ≤ 8 by simpa using fits)
  have stored : machine.kernel (.store mem (pageOffset machine.page addr) (encode b.order size value))
      (machine.mapped flags addr mem memory) =
      ((),machine.mapped flags addr mem (memory.store addr (encode b.order size value))) := by
    simp only [Machine.kernel,target]
    rfl
  exact Prog.exec_step stored _

theorem doRead_exec (fits : size ≤ 8) (b : Build) {flags : OpenFlags} (usable : flags.prot.read = true) (memory : Memory) :
    (mmioDoRead b (machine.mapping flags addr mem) size).exec machine.kernel (machine.mapped flags addr mem memory) =
      ⟨[⟨.load mem (pageOffset machine.page addr) size,fun i => memory (addr + i)⟩,
        ⟨.stdout ("0x".toList ++ hexLower (size * 2) (decode b.order (memory.load addr size)) ++ "\n".toList),()⟩],.ok 0,
        machine.mapped flags addr mem memory⟩ := by
  have target := physical_window machine small usable memory mem fits
  have loaded : machine.kernel (.load mem (pageOffset machine.page addr) size) (machine.mapped flags addr mem memory) =
      ((fun i : Fin size => memory (addr + i)),machine.mapped flags addr mem memory) := by
    simp only [Machine.kernel,target]
    rfl
  have bytes : List.ofFn (fun i : Fin size => memory (addr + i)) = memory.load addr size := by
    apply List.ext_getElem
    · simp
    · simp [Memory.load]
  rw [← bytes]
  exact Prog.exec_step loaded _

theorem accessesAt_single (fits : size ≤ 8) (rest : Trace Sys)
    (only : ∀ (mem' : Nat) (offset : Int) (size' : Nat),
      (∃ data, ⟨.load mem' offset size',data⟩ ∈ rest) ∨
        (∃ bytes reply, ⟨.store mem' offset bytes,reply⟩ ∈ rest ∧ bytes.length = size') →
      mem' = mem ∧ offset = pageOffset machine.page addr ∧ size' = size) :
    AccessesAt machine.page addr (machine.opening flags addr mem ++ rest) := by
  have split := page_split machine.page small
  have reach := window_reaches machine small fits
  intro mem' offset size' access
  have later : (∃ data, ⟨.load mem' offset size',data⟩ ∈ rest) ∨
      (∃ bytes reply, ⟨.store mem' offset bytes,reply⟩ ∈ rest ∧ bytes.length = size') := by
    revert access
    unfold Machine.opening
    generalize "/dev/mem".toList = path
    simp
  obtain ⟨sameMem,sameOffset,sameSize⟩ := only mem' offset size' later
  rw [sameMem,sameOffset,sameSize]
  refine ⟨machine.length addr,flags.prot,machine.opens flags,pageBase machine.page addr,?_,
    split.1,split.2.1,split.2.2.1,split.2.2.2,reach.2⟩
  exact List.mem_append_left _ (.tail _ (.tail _ (.head _)))

end Granted

def memCmds : List CmdInfo := mmioCmds ++ cacheableMmioCmds

def CmdInfo.bytes (info : CmdInfo) : Nat := info.sizedata.getD 0 / 8

theorem memCmds_sized : ∀ info ∈ memCmds, info.entry = .mmioReadX ∨ info.entry = .mmioWriteX →
    (info.sizedata = some 8 ∨ info.sizedata = some 16 ∨ info.sizedata = some 32 ∨ info.sizedata = some 64) ∧
    (∀ p ∈ info.params, p.ioplNeeded = 0 ∧ p.minArgs = p.maxArgs ∧
      p.minArgs = if info.entry = .mmioReadX then 2 else 3) := by
  decide

theorem mmioWriteX_sized (b : Build) (w64 : b.long = .w64) (info : CmdInfo)
    (sized : info.sizedata = some 8 ∨ info.sizedata = some 16 ∨ info.sizedata = some 32 ∨ info.sizedata = some 64)
    (name addr value : Arg) :
    mmioWriteX b [name,addr,value] info =
      openMapping (strtoull 0 addr.text).1 ⟨.rdwr,false⟩ sizeofDataStore >>= fun opened =>
        match opened with
        | none => .done (-1)
        | some mapping =>
          mmioDoWrite b mapping info.bytes (strtoulLong b 0 value.text).1 >>= fun ret =>
            closeMapping mapping >>= fun _ => .done ret := by
  unfold mmioWriteX getCommandSize CmdInfo.bytes warnNotAtomic
  rw [w64]
  rcases sized with size | size | size | size <;> rw [size] <;> rfl

theorem mmioReadX_sized (b : Build) (w64 : b.long = .w64) (info : CmdInfo) (flags : info.privdata = .mmapFileFlags sync)
    (sized : info.sizedata = some 8 ∨ info.sizedata = some 16 ∨ info.sizedata = some 32 ∨ info.sizedata = some 64)
    (name addr : Arg) :
    mmioReadX b [name,addr] info =
      openMapping (strtoull 0 addr.text).1 ⟨.rdonly,sync⟩ sizeofDataStore >>= fun opened =>
        match opened with
        | none => .done (-1)
        | some mapping =>
          mmioDoRead b mapping info.bytes >>= fun ret => closeMapping mapping >>= fun _ => .done ret := by
  unfold mmioReadX mmapFlagsOf getCommandSize CmdInfo.bytes warnNotAtomic
  rw [w64,flags]
  rcases sized with size | size | size | size <;> rw [size] <;> rfl

theorem runInfo_passes (b : Build) (fuel : Nat) (noIopl : b.arch = .x86 → ∀ p ∈ info.params, p.ioplNeeded = 0)
    (admitted : Admits info.params argv) : runInfo b fuel argv info = info.entry.call b fuel argv info := by
  have passes : checkPrereqs b argv info.params = .done 0 := by
    cases found : info.params with
    | none => rfl
    | some p =>
      rw [found] at noIopl admitted
      have level : ¬ (b.arch = .x86 ∧ p.ioplNeeded ≠ 0) := fun both => both.2 (noIopl both.1 p rfl)
      have count := admitted p rfl
      have inside : ¬ (argv.length < p.minArgs ∨ p.maxArgs < argv.length) := by omega
      simp [checkPrereqs,inside,level]
  rw [runInfo,passes]
  rfl

theorem runInfo_admitted (b : Build) (fuel : Nat) (noIopl : ∀ p ∈ info.params, p.ioplNeeded = 0)
    (admitted : Admits info.params argv) : runInfo b fuel argv info = info.entry.call b fuel argv info :=
  runInfo_passes b fuel (fun _ => noIopl) admitted

def CmdInfo.sync (info : CmdInfo) : Bool :=
  match info.privdata with
  | .mmapFileFlags sync => sync
  | _ => false

theorem memCmds_flags : ∀ info ∈ memCmds, info.privdata = .mmapFileFlags info.sync := by decide

theorem access_width (member : info ∈ memCmds) (accesses : info.entry = .mmioReadX ∨ info.entry = .mmioWriteX) :
    0 < info.bytes ∧ info.bytes ≤ 8 := by
  obtain ⟨sized,_⟩ := memCmds_sized info member accesses
  unfold CmdInfo.bytes
  rcases sized with size | size | size | size <;> rw [size] <;> decide

section Run
variable (b : Build) (w64 : b.long = .w64) (fuel : Nat) (machine : Machine) (info : CmdInfo) (member : info ∈ memCmds)
  (name addr : Arg) (s : DevMem)

include w64 member

theorem write_exec (writes : info.entry = .mmioWriteX) (value : Arg)
    (granted : machine.grants ⟨.rdwr,false⟩ (strtoull 0 addr.text).1 = some mem) :
    (runInfo b fuel [name,addr,value] info).exec machine.kernel s =
      ⟨machine.opening ⟨.rdwr,false⟩ (strtoull 0 addr.text).1 mem ++
        [⟨.store mem (pageOffset machine.page (strtoull 0 addr.text).1)
            (encode b.order info.bytes (strtoulLong b 0 value.text).1),()⟩,
          ⟨.munmap mem (machine.length (strtoull 0 addr.text).1),()⟩,⟨.close (machine.opens ⟨.rdwr,false⟩),()⟩],
        .ok 0,⟨s.memory.store (strtoull 0 addr.text).1 (encode b.order info.bytes (strtoulLong b 0 value.text).1),none,none⟩⟩ := by
  obtain ⟨sized,params⟩ := memCmds_sized info member (.inr writes)
  have small : (strtoull 0 addr.text).1 < 2 ^ 64 := strtoul_lt 64 0 addr.text
  have fits := (access_width member (.inr writes)).2
  have admitted : Admits info.params [name,addr,value] := by
    intro p found
    have count := params p found
    simp only [writes,reduceCtorEq,if_false] at count
    simp only [List.length_cons,List.length_nil]
    omega
  rw [runInfo_admitted b fuel (fun p found => (params p found).1) admitted,writes]
  simp only [Entry.call]
  rw [mmioWriteX_sized b w64 info sized,Prog.exec_seq (openMapping_exec machine small (by simp) granted s)]
  simp only
  rw [Prog.exec_seq (doWrite_exec machine small fits b rfl _ _),Prog.exec_seq (closeMapping_mapped machine _ _ _ _)]
  simp only [Run.prepend,Prog.exec_done,List.append_nil,List.cons_append,List.nil_append]

theorem read_exec (reads : info.entry = .mmioReadX)
    (granted : machine.grants ⟨.rdonly,info.sync⟩ (strtoull 0 addr.text).1 = some mem) :
    (runInfo b fuel [name,addr] info).exec machine.kernel s =
      ⟨machine.opening ⟨.rdonly,info.sync⟩ (strtoull 0 addr.text).1 mem ++
        [⟨.load mem (pageOffset machine.page (strtoull 0 addr.text).1) info.bytes,
            fun i => s.memory ((strtoull 0 addr.text).1 + i)⟩,
          ⟨.stdout ("0x".toList ++ hexLower (info.bytes * 2)
            (decode b.order (s.memory.load (strtoull 0 addr.text).1 info.bytes)) ++ "\n".toList),()⟩,
          ⟨.munmap mem (machine.length (strtoull 0 addr.text).1),()⟩,⟨.close (machine.opens ⟨.rdonly,info.sync⟩),()⟩],
        .ok 0,⟨s.memory,none,none⟩⟩ := by
  obtain ⟨sized,params⟩ := memCmds_sized info member (.inl reads)
  have small : (strtoull 0 addr.text).1 < 2 ^ 64 := strtoul_lt 64 0 addr.text
  have fits := (access_width member (.inl reads)).2
  have admitted : Admits info.params [name,addr] := by
    intro p found
    have count := params p found
    simp only [reads,if_true] at count
    simp only [List.length_cons,List.length_nil]
    omega
  rw [runInfo_admitted b fuel (fun p found => (params p found).1) admitted,reads]
  simp only [Entry.call]
  rw [mmioReadX_sized b w64 info (memCmds_flags info member) sized,Prog.exec_seq (openMapping_exec machine small (by simp) granted s)]
  simp only
  rw [Prog.exec_seq (doRead_exec machine small fits b rfl _),Prog.exec_seq (closeMapping_mapped machine _ _ _ _)]
  simp only [Run.prepend,Prog.exec_done,List.append_nil,List.cons_append,List.nil_append]

theorem write_effect (writes : info.entry = .mmioWriteX) (value : Arg)
    (granted : (machine.grants ⟨.rdwr,false⟩ (strtoull 0 addr.text).1).isSome) :
    ((runInfo b fuel [name,addr,value] info).exec machine.kernel s).outcome = .ok 0 ∧
    AccessesAt machine.page (strtoull 0 addr.text).1 ((runInfo b fuel [name,addr,value] info).exec machine.kernel s).trace ∧
    ((runInfo b fuel [name,addr,value] info).exec machine.kernel s).state.memory =
      s.memory.store (strtoull 0 addr.text).1 (encode b.order info.bytes (strtoulLong b 0 value.text).1) := by
  obtain ⟨mem,granted⟩ := Option.isSome_iff_exists.mp granted
  rw [write_exec b w64 fuel machine info member name addr s writes value granted]
  refine ⟨rfl,?_,rfl⟩
  refine accessesAt_single machine (strtoul_lt 64 0 addr.text) (access_width member (.inr writes)).2 _ ?_
  intro mem' offset size access
  simp only [List.mem_cons,List.not_mem_nil,Event.mk.injEq,Call.store.injEq,reduceCtorEq,false_and,or_false,
    exists_false,false_or] at access
  obtain ⟨bytes,reply,⟨⟨sameMem,sameOffset,sameBytes⟩,_⟩,length⟩ := access
  exact ⟨sameMem,sameOffset,by rw [← length,sameBytes,encode_length]⟩

theorem read_effect (reads : info.entry = .mmioReadX)
    (granted : (machine.grants ⟨.rdonly,info.sync⟩ (strtoull 0 addr.text).1).isSome) :
    ((runInfo b fuel [name,addr] info).exec machine.kernel s).outcome = .ok 0 ∧
    AccessesAt machine.page (strtoull 0 addr.text).1 ((runInfo b fuel [name,addr] info).exec machine.kernel s).trace ∧
    ((runInfo b fuel [name,addr] info).exec machine.kernel s).state.memory = s.memory ∧
    printed ((runInfo b fuel [name,addr] info).exec machine.kernel s).trace =
      "0x".toList ++ hexLower (info.bytes * 2) (decode b.order (s.memory.load (strtoull 0 addr.text).1 info.bytes)) ++
        "\n".toList := by
  obtain ⟨mem,granted⟩ := Option.isSome_iff_exists.mp granted
  rw [read_exec b w64 fuel machine info member name addr s reads granted]
  refine ⟨rfl,?_,rfl,?_⟩
  · refine accessesAt_single machine (strtoul_lt 64 0 addr.text) (access_width member (.inl reads)).2 _ ?_
    intro mem' offset size access
    simp only [List.mem_cons,List.not_mem_nil,Event.mk.injEq,Call.load.injEq,reduceCtorEq,false_and,or_false,
      exists_false] at access
    obtain ⟨data,same,_⟩ := access
    exact same
  · have opens : printed (machine.opening ⟨.rdonly,info.sync⟩ (strtoull 0 addr.text).1 mem) = [] := rfl
    rw [printed_append,opens]
    simp only [printed_cons,printed_nil,output_stdout,output_load,output_munmap,output_close,List.nil_append,
      List.append_nil]

end Run

-- A write changes exactly the bytes at the address, and a later read of the
-- same width prints what was written.
theorem mmio_write_read_back (b : Build) (w64 : b.long = .w64) (fuel : Nat) (machine : Machine) (wr rd : CmdInfo)
    (wrMember : wr ∈ memCmds) (rdMember : rd ∈ memCmds) (writes : wr.entry = .mmioWriteX) (reads : rd.entry = .mmioReadX)
    (width : rd.bytes = wr.bytes) (wrName wrAddr value rdName rdAddr : Arg)
    (address : (strtoull 0 rdAddr.text).1 = (strtoull 0 wrAddr.text).1) (s : DevMem)
    (wrGranted : (machine.grants ⟨.rdwr,false⟩ (strtoull 0 wrAddr.text).1).isSome)
    (rdGranted : (machine.grants ⟨.rdonly,rd.sync⟩ (strtoull 0 rdAddr.text).1).isSome) :
    let A := (strtoull 0 wrAddr.text).1
    let v := (strtoulLong b 0 value.text).1 % 2 ^ (8 * wr.bytes)
    let written := (runInfo b fuel [wrName,wrAddr,value] wr).exec machine.kernel s
    let read := (runInfo b fuel [rdName,rdAddr] rd).exec machine.kernel written.state
    written.outcome = .ok 0 ∧ AccessesAt machine.page A written.trace ∧
    (∀ k < wr.bytes, (encode b.order wr.bytes v)[k]? = some (written.state.memory (A + k))) ∧
    (∀ x, x < A ∨ A + wr.bytes ≤ x → written.state.memory x = s.memory x) ∧
    read.outcome = .ok 0 ∧ AccessesAt machine.page A read.trace ∧ read.state.memory = written.state.memory ∧
    printed read.trace = "0x".toList ++ hexLower (2 * wr.bytes) v ++ "\n".toList ∧
    (hexLower (2 * wr.bytes) v).length = 2 * wr.bytes := by
  obtain ⟨positive,_⟩ := access_width wrMember (.inr writes)
  have base : 2 ^ (8 * wr.bytes) = 256 ^ wr.bytes := by rw [pow_mul]; rfl
  have narrow : encode b.order wr.bytes ((strtoulLong b 0 value.text).1 % 256 ^ wr.bytes) =
      encode b.order wr.bytes (strtoulLong b 0 value.text).1 := by
    cases b.order <;> simp [encode,toLittle_mod]
  intro A v written read
  obtain ⟨wrOk,wrAccess,wrMemory⟩ := write_effect b w64 fuel machine wr wrMember wrName wrAddr s writes value wrGranted
  obtain ⟨rdOk,rdAccess,rdMemory,text⟩ :=
    read_effect b w64 fuel machine rd rdMember rdName rdAddr written.state reads rdGranted
  have stored : written.state.memory = s.memory.store A (encode b.order wr.bytes v) := by
    rw [show v = _ % 256 ^ wr.bytes by rw [← base],narrow]
    exact wrMemory
  have length := encode_length b.order wr.bytes v
  have bound : v < 256 ^ wr.bytes := by
    rw [← base]
    exact Nat.mod_lt _ (Nat.two_pow_pos _)
  refine ⟨wrOk,wrAccess,?_,?_,rdOk,by rwa [address] at rdAccess,rdMemory,?_,?_⟩
  · intro k inside
    rw [stored,Memory.store_inside _ _ _ (by omega)]
    exact List.getElem?_eq_getElem _
  · intro x outside
    rw [stored]
    exact Memory.store_outside _ _ (by omega)
  · have back := Memory.load_store s.memory A (encode b.order wr.bytes v)
    rw [length] at back
    rw [show printed read.trace = _ from text,address,width,stored,back,decode_encode,Nat.mod_eq_of_lt bound,mul_comm]
  · have digits : 256 ^ wr.bytes = 16 ^ (2 * wr.bytes) := by rw [pow_mul]; rfl
    exact hexLower_length (by omega) (by rwa [← digits])

theorem mmio_write_read_back_across_pages :
    let machine : Machine := ⟨⟨12,by decide⟩,fun _ => 3,fun _ _ => some 0⟩
    let wr := makeCmdWithParamsSize "mmio_write32" .mmioWriteX (.mmapFileFlags true) mmioWrParams 32
    let rd := makeCmdWithParamsSize "mem_read32" .mmioReadX (.mmapFileFlags false) mmioRdParams 32
    let written := (runInfo .x86_64 0 (["mmio_write32","0x1fff","0x12345678"].map Arg.of) wr).exec machine.kernel
      ⟨fun _ => 0xaa,none,none⟩
    let read := (runInfo .x86_64 0 (["mem_read32","8191"].map Arg.of) rd).exec machine.kernel written.state
    written.state.memory.load 0x1ffe 6 = [0xaa,0x78,0x56,0x34,0x12,0xaa] ∧
    printed read.trace = "0x12345678\n".toList ∧ AccessesAt machine.page 0x1fff read.trace := by
  refine ⟨by decide +kernel,by decide +kernel,?_⟩
  exact (mmio_write_read_back .x86_64 rfl 0 ⟨⟨12,by decide⟩,fun _ => 3,fun _ _ => some 0⟩
    (makeCmdWithParamsSize "mmio_write32" .mmioWriteX (.mmapFileFlags true) mmioWrParams 32)
    (makeCmdWithParamsSize "mem_read32" .mmioReadX (.mmapFileFlags false) mmioRdParams 32)
    (by decide) (by decide) rfl rfl rfl (.of "mmio_write32") (.of "0x1fff") (.of "0x12345678") (.of "mem_read32")
    (.of "8191") (by decide +kernel) ⟨fun _ => 0xaa,none,none⟩ (by decide +kernel) (by decide +kernel)).2.2.2.2.2.1

end Iotools
