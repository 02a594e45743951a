import Iotools.DumpModes
import Iotools.ProgramContracts
import Iotools.Sessions

namespace Iotools
open Bytes Numeral Interaction

-- A command line of the program that names a command, with that command and
-- the vector it is entered with.
structure Issued (b : Build) where
  argv : List Arg
  info : CmdInfo
  vector : List Arg
  chosen : selected b argv = some (info,vector)

def Issued.run (order : List Group) (fuel : Nat) (c : Issued b) : Action Int := runCommand b (registerAll order) fuel c.argv

def Issued.text (c : Issued b) (index : Nat) : Text := (c.vector[index]?.map Arg.text).getD []

section Order
variable {b : Build} {order : List Group} (perm : order.Perm (groups b)) (enough : order.length ≤ fuel)
include perm enough

theorem Issued.run_eq (c : Issued b) : c.run order fuel = runInfo b fuel c.vector c.info :=
  (runCommand_selected perm enough c.chosen).1

end Order

theorem Issued.member (c : Issued b) : c.info ∈ everyCmd :=
  mem_everyCmd (runCommand_selected (.refl _) (le_refl _) c.chosen).2.1

def bytesAt (address : Nat) (bytes : List UInt8) : Patch Nat UInt8 := fun x =>
  if address ≤ x then bytes[x - address]? else none

theorem bytesAt_apply (address : Nat) (bytes : List UInt8) (memory : Memory) :
    (bytesAt address bytes).apply memory = memory.store address bytes := by
  funext x
  unfold Patch.apply bytesAt Memory.store
  split
  · rw [List.getD_eq_getElem?_getD]
  · rfl

section Dump
variable (machine : Machine) (flags : OpenFlags) (count : Nat) {addr : Nat} (small : addr < 2 ^ 64)

def Machine.span (addr : Nat) : Nat := toUnsigned ((count % 2 ^ 32 : Nat) + pageOffset machine.page addr)

def Machine.spans (addr : Nat) : Option Nat :=
  if machine.opens flags < 0 then none else machine.maps (machine.span count addr) (pageBase machine.page addr)

def Machine.view (addr mem : Nat) (memory : Memory) : DevMem :=
  ⟨memory,some (machine.opens flags,flags),some ⟨mem,pageBase machine.page addr,machine.span count addr,flags.prot⟩⟩

include small

theorem openMapping_spans (readable : flags.mode ≠ .wronly) (granted : machine.spans flags count addr = some mem) (s : DevMem) :
    ∃ trace mapping, (openMapping addr flags count).exec machine.kernel s =
        ⟨trace,.ok (some mapping),machine.view flags count addr mem s.memory⟩ ∧ printed trace = [] ∧
      mapping = ⟨machine.opens flags,mem,pageOffset machine.page addr,machine.span count addr,pageBase machine.page addr⟩ := by
  unfold Machine.spans at granted
  split at granted
  · cases granted
  · rename_i opens
    exact ⟨_,_,openMapping_granted machine readable small opens granted s,rfl,rfl⟩

theorem physical_view (readable : flags.prot.read = true) (fits : addr % machine.page.bytes + count < 2 ^ 32) (memory : Memory)
    (mem : Nat) (inside : k + size ≤ count) :
    (machine.view flags count addr mem memory).physical Prot.read mem (pageOffset machine.page addr + k) size =
      some (addr + k) := by
  have whole := Nat.div_add_mod' addr machine.page.bytes
  have offset := pageOffset_eq machine.page addr
  have base := pageBase_eq machine.page small
  have long : machine.span count addr = addr % machine.page.bytes + count := by
    unfold Machine.span toUnsigned
    rw [offset]
    omega
  have reach : 0 ≤ pageOffset machine.page addr + k ∧
      pageOffset machine.page addr + k + size ≤ (machine.span count addr : Int) := by
    rw [offset,long]
    omega
  simp only [DevMem.physical,Machine.view]
  rw [if_pos ⟨readable,trivial,reach⟩,base,offset]
  simp only [Option.some.injEq]
  omega

end Dump

def looks : Event Sys → Prop
  | ⟨.load ..,_⟩ | ⟨.stdout _,_⟩ => True
  | _ => False

theorem dumpField_looks (b : Build) (mem : Nat) (position : Int) (label fields size : Nat) :
    (dumpField b mem position label fields size).Safe looks (fun _ => False) := by
  unfold dumpField
  split <;> split <;> simp [looks]

theorem looks_still (machine : Machine) (s : DevMem) (c : Call) (looking : looks ⟨c,(machine.kernel c s).1⟩) :
    (machine.kernel c s).2 = s := by
  cases c with
  | load mem offset size =>
    simp only [Machine.kernel]
    split <;> rfl
  | stdout text => rfl
  | _ => exact looking.elim

theorem dumpMapped_exec (b : Build) (machine : Machine) (sync : Bool) (count : Nat) (small : addr < 2 ^ 64)
    (fits : addr % machine.page.bytes + count < 2 ^ 32) (mapping : MmapInfo) (memory : Memory)
    (made : mapping =
      ⟨machine.opens ⟨.rdonly,sync⟩,mem,pageOffset machine.page addr,machine.span count addr,pageBase machine.page addr⟩) :
    let run := (dumpMapped b addr count false mapping).exec machine.kernel (machine.view ⟨.rdonly,sync⟩ count addr mem memory)
    run.outcome = .ok 0 ∧ run.state.memory = memory ∧ printed run.trace = dumpedText b.order addr (memory.load addr count) := by
  have text := dumpMapped_text b addr (memory.load addr count) mapping
  rw [Memory.load_length] at text
  have place {k size : Nat} (inside : k + size ≤ count) :=
    physical_view machine ⟨.rdonly,sync⟩ count small rfl fits memory mem inside
  have closes : (closeMapping mapping).exec machine.kernel (machine.view ⟨.rdonly,sync⟩ count addr mem memory) =
      ⟨[⟨.munmap mapping.mem mapping.length,()⟩,⟨.close mapping.fd,()⟩],.ok (),⟨memory,none,none⟩⟩ := by
    rw [made]
    unfold Machine.view
    generalize machine.span count addr = length
    exact closeMapping_exec machine memory ⟨.rdonly,sync⟩ ⟨mem,_,length,_⟩ ⟨_,mem,_,length,_⟩ ⟨rfl,rfl⟩
  have names : mapping.mem = mem ∧ mapping.off = pageOffset machine.page addr := by simp [made]
  have held : (machine.view ⟨.rdonly,sync⟩ count addr mem memory).memory = memory := rfl
  generalize machine.view ⟨.rdonly,sync⟩ count addr mem memory = s at place closes held ⊢
  obtain ⟨returned,prints⟩ := text.exec machine.kernel s
  have loop := dumpLoop_safe b mapping.mem (dumpField_looks b mapping.mem) count mapping.off addr 0
  obtain ⟨stays,answers⟩ := loop.still (looks_still machine s)
  obtain ⟨_,last,ends⟩ := (dumpLoop_reads b mapping.mem count mapping.off addr 0).exec machine.kernel s
  cases looped : (dumpLoop b mapping.mem count mapping.off addr 0).exec machine.kernel s with
  | mk trace outcome state =>
    rw [looped] at stays answers ends
    dsimp only at stays answers ends
    subst stays
    subst ends
    -- behind the loop there is nothing left to load
    have whole : ∃ rest, (dumpMapped b addr count false mapping).exec machine.kernel state =
          ⟨trace ++ rest,.ok 0,⟨memory,none,none⟩⟩ ∧
        ∀ mem position size (data : Buffer size), ⟨.load mem position size,data⟩ ∉ rest := by
      unfold dumpMapped
      simp only [Bool.false_eq_true,if_false]
      rw [Prog.exec_seq looped]
      by_cases ended : last = 0
      · rw [if_neg (not_not.mpr ended),Prog.exec_seq closes]
        exact ⟨_,rfl,by simp⟩
      · rw [if_pos ended,Prog.call_bind,
          Prog.exec_step (show machine.kernel (.stdout "\n".toList) state = ((),state) from rfl),Prog.done_bind,
          Prog.exec_seq closes]
        exact ⟨_,rfl,by simp⟩
    obtain ⟨rest,whole,unread⟩ := whole
    rw [whole] at prints ⊢
    refine ⟨rfl,rfl,prints ?_⟩
    intro k size data inside member
    rw [Memory.load_length] at inside
    have loaded := answers _ ((List.mem_append.mp member).resolve_right (unread _ _ _ _))
    simp only [Machine.kernel,names.1,names.2,place inside,held] at loaded
    rw [loaded,← load_part memory addr inside]
    apply List.ext_getElem
    · simp
    · intro i _ _
      simp [Memory.load]

theorem dump_exec (b : Build) (sync : Bool) (machine : Machine) (count : Nat) (small : addr < 2 ^ 64)
    (fits : addr % machine.page.bytes + count < 2 ^ 32) (granted : (machine.spans ⟨.rdonly,sync⟩ count addr).isSome) (s : DevMem) :
    let run := (dumpRange b sync addr count false).exec machine.kernel s
    run.outcome = .ok 0 ∧ run.state.memory = s.memory ∧ printed run.trace = dumpedText b.order addr (s.memory.load addr count) := by
  obtain ⟨mem,granted⟩ := Option.isSome_iff_exists.mp granted
  obtain ⟨opening,mapping,opens,quiet,made⟩ := openMapping_spans machine ⟨.rdonly,sync⟩ count small (by simp) granted s
  obtain ⟨returned,kept,prints⟩ := dumpMapped_exec b machine sync count small fits mapping s.memory made
  rw [dumpRange_eq,Prog.exec_seq opens]
  refine ⟨returned,kept,?_⟩
  rw [Run.prepend_trace,printed_append,quiet,List.nil_append]
  exact prints

-- What a memory command is about: an address, and the number behind it, which
-- is the value of a write and the length of a dump.
def Issued.address (c : Issued b) : Nat := (strtoull 0 (c.text 1)).1
def Issued.number (c : Issued b) : Nat := (strtoulLong b 0 (c.text 2)).1

def Issued.stores (c : Issued b) : Patch Nat UInt8 :=
  if c.info.entry = .mmioWriteX then bytesAt c.address (encode b.order c.info.bytes c.number) else Patch.idle

-- What the machine has to grant: the mapping the command asks for. A dump is
-- one in text mode, of fewer than 2^32 bytes from its page on.
def Machine.Grants (machine : Machine) (c : Issued b) : Prop :=
  match c.info.entry with
  | .mmioReadX => (machine.grants ⟨.rdonly,c.info.sync⟩ c.address).isSome
  | .mmioWriteX => (machine.grants ⟨.rdwr,false⟩ c.address).isSome
  | .mmioDump => c.vector.length = 3 ∧ c.address % machine.page.bytes + c.number < 2 ^ 32 ∧
      (machine.spans ⟨.rdonly,c.info.sync⟩ c.number c.address).isSome
  | _ => False

structure MemoryCommand (machine : Machine) (c : Issued b) : Prop where
  admitted : Admits c.info.params c.vector
  granted : machine.Grants c

-- What the text on stdout says of the memory.
def Issued.tells (c : Issued b) (memory : Memory) (text : Text) : Prop :=
  match c.info.entry with
  | .mmioReadX => text = valueLine c.info.bytes (decode b.order (memory.load c.address c.info.bytes))
  | .mmioDump => decodeDump b.order text = memory.load c.address c.number
  | _ => text = []

theorem mappers_mem : ∀ info ∈ everyCmd, info.entry ∈ mappers → info ∈ memCmds := by decide +kernel

theorem writer_params : ∀ info ∈ memCmds, info.entry = .mmioWriteX → info.params = some mmioWrParams := by decide
theorem reader_params : ∀ info ∈ memCmds, info.entry = .mmioReadX → info.params = some mmioRdParams := by decide

section Command
variable {b : Build} (w64 : b.long = .w64) (fuel : Nat) (machine : Machine) {c : Issued b} (serves : MemoryCommand machine c)
  (s : DevMem)
include w64 serves

theorem memoryCommand_effect :
    let run := (runInfo b fuel c.vector c.info).exec machine.kernel s
    run.outcome = .ok 0 ∧ run.state.memory = c.stores.apply s.memory ∧ c.tells s.memory (printed run.trace) := by
  obtain ⟨admitted,granted⟩ := serves
  have member : c.info.entry ∈ mappers → c.info ∈ memCmds := mappers_mem c.info c.member
  unfold Machine.Grants at granted
  unfold Issued.stores Issued.tells
  cases entry : c.info.entry with
  | mmioReadX =>
    have listed := member (by rw [entry]; decide)
    rw [reader_params c.info listed entry] at admitted
    obtain ⟨least,most⟩ := admitted mmioRdParams rfl
    obtain ⟨name,addr,vector⟩ := List.length_eq_two.mp (le_antisymm most least)
    have address : c.address = (strtoull 0 addr.text).1 := by simp [Issued.address,Issued.text,vector]
    rw [entry,address] at granted
    rw [vector,address]
    obtain ⟨returned,_,kept,text⟩ := read_effect b w64 fuel machine c.info listed name addr s entry granted
    exact ⟨returned,kept,text⟩
  | mmioWriteX =>
    have listed := member (by rw [entry]; decide)
    rw [writer_params c.info listed entry] at admitted
    obtain ⟨least,most⟩ := admitted mmioWrParams rfl
    obtain ⟨name,addr,value,vector⟩ := List.length_eq_three.mp (le_antisymm most least)
    have address : c.address = (strtoull 0 addr.text).1 := by simp [Issued.address,Issued.text,vector]
    have number : c.number = (strtoulLong b 0 value.text).1 := by simp [Issued.number,Issued.text,vector]
    rw [entry,address] at granted
    rw [vector,address,number,if_pos rfl,bytesAt_apply]
    obtain ⟨mem,granted⟩ := Option.isSome_iff_exists.mp granted
    rw [write_exec b w64 fuel machine c.info listed name addr s entry value granted]
    exact ⟨rfl,rfl,rfl⟩
  | mmioDump =>
    have listed := member (by rw [entry]; decide)
    rw [entry] at granted
    obtain ⟨three,fits,granted⟩ := granted
    obtain ⟨name,addr,count,vector⟩ := List.length_eq_three.mp three
    obtain ⟨params,held⟩ := memCmds_dump c.info listed entry
    have address : c.address = (strtoull 0 addr.text).1 := by simp [Issued.address,Issued.text,vector]
    have number : c.number = (strtoulLong b 0 count.text).1 := by simp [Issued.number,Issued.text,vector]
    have small : c.address < 2 ^ 64 := strtoul_lt 64 0 _
    have run : runInfo b fuel c.vector c.info = dumpRange b c.info.sync c.address c.number false := by
      rw [runInfo_admitted b fuel (by rw [params]; exact mmioDumpParams_noIopl) admitted,entry,vector,address,number]
      exact mmioDump_text b held name addr count
    obtain ⟨returned,kept,text⟩ := dump_exec b c.info.sync machine c.number small fits granted s
    rw [run]
    refine ⟨returned,kept,?_⟩
    dsimp only
    rw [text,decodeDump_dumpedText b.order small]
  | _ => rw [entry] at granted; exact granted.elim

end Command

-- Over a whole session of memory commands, cached or not, of any width and
-- overlapping in any way: every byte is what was stored there last, and each
-- command that reads tells the bytes that were there when its turn came.
theorem memory_session (b : Build) (w64 : b.long = .w64) (order : List Group) (perm : order.Perm (groups b)) (fuel : Nat)
    (enough : order.length ≤ fuel) (machine : Machine) (commands : List (Issued b))
    (serves : ∀ c ∈ commands, MemoryCommand machine c) (s : DevMem) :
    let memory := fun done : List (Issued b) => (Patch.last (done.map Issued.stores)).apply s.memory
    let state := fun done : List (Issued b) => Prog.session machine.kernel (done.map (Issued.run order fuel)) s
    (state commands).memory = memory commands ∧
    ∀ before c later, commands = before ++ c :: later →
      let run := (c.run order fuel).exec machine.kernel (state before)
      run.outcome = .ok 0 ∧ c.tells (memory before) (printed run.trace) := by
  intro memory state
  have effect (c : Issued b) (member : c ∈ commands) (s : DevMem) := memoryCommand_effect w64 fuel machine (serves c member) s
  have reached (done : List (Issued b)) (sub : done ⊆ commands) : (state done).memory = memory done := by
    refine (Prog.session_store (fun _ => True) DevMem.memory ?_ s trivial).2
    intro c member s _
    rw [c.run_eq perm enough]
    exact ⟨trivial,(effect c (sub member) s).2.1⟩
  refine ⟨reached commands (List.Subset.refl _),?_⟩
  intro before c later split run
  have ends := effect c (by rw [split]; simp) (state before)
  rw [← c.run_eq perm enough,reached before (by rw [split]; exact List.subset_append_left _ _)] at ends
  exact ⟨ends.1,ends.2.2⟩

theorem memory_session_overlap :
    let machine : Machine := ⟨⟨12,by decide⟩,fun _ => 3,fun _ _ => some 0⟩
    let program := fun args : List String => runCommand .x86_64 (registerAll (groups .x86_64)) 9 (args.map Arg.of)
    let state := Prog.session machine.kernel [program ["iotools","mmio_write32","0x1fff","0x12345678"],
      program ["iotools","mem_write8","0x2000","0xff"]] ⟨fun _ => 0,none,none⟩
    state.memory 0x2001 = 0x34 ∧
    printed ((program ["iotools","mem_read32","0x1fff"]).exec machine.kernel state).trace = "0x1234ff78\n".toList := by
  intro machine program state
  let wide : Issued .x86_64 := ⟨["iotools","mmio_write32","0x1fff","0x12345678"].map Arg.of,
    makeCmdWithParamsSize "mmio_write32" .mmioWriteX (.mmapFileFlags true) mmioWrParams 32,
    ["mmio_write32","0x1fff","0x12345678"].map Arg.of,by decide +kernel⟩
  let narrow : Issued .x86_64 := ⟨["iotools","mem_write8","0x2000","0xff"].map Arg.of,
    makeCmdWithParamsSize "mem_write8" .mmioWriteX (.mmapFileFlags false) mmioWrParams 8,
    ["mem_write8","0x2000","0xff"].map Arg.of,by decide +kernel⟩
  let read : Issued .x86_64 := ⟨["iotools","mem_read32","0x1fff"].map Arg.of,
    makeCmdWithParamsSize "mem_read32" .mmioReadX (.mmapFileFlags false) mmioRdParams 32,
    ["mem_read32","0x1fff"].map Arg.of,by decide +kernel⟩
  have serves : ∀ c ∈ [wide,narrow,read], MemoryCommand machine c := by
    intro c member
    simp only [List.mem_cons,List.not_mem_nil,or_false] at member
    rcases member with rfl | rfl | rfl
    · exact ⟨by decide,rfl⟩
    · exact ⟨by decide,rfl⟩
    · exact ⟨by decide,rfl⟩
  obtain ⟨memory,tells⟩ := memory_session .x86_64 rfl (groups .x86_64) (.refl _) 9 (by decide) machine [wide,narrow,read] serves
    ⟨fun _ => 0,none,none⟩
  obtain ⟨_,line⟩ := tells [wide,narrow] read [] rfl
  refine ⟨?_,line.trans (by decide +kernel)⟩
  decide +kernel

end Iotools
