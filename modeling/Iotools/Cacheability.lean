import Iotools.Setup
import Iotools.MmioAccess

namespace Iotools
open Bytes Numeral Interaction

def accessed : Event Sys → Option Nat
  | ⟨.load mem _ _,_⟩ => some mem
  | ⟨.store mem _ _,_⟩ => some mem
  | _ => none

-- Every access goes through a mapping of /dev/mem, and the descriptor behind
-- it was opened with O_SYNC or without, as `sync` says.
def MappedWith (sync : Bool) (trace : Trace Sys) : Prop :=
  ∀ before e after mem, trace = before ++ e :: after → accessed e = some mem →
    ∃ (flags : OpenFlags) (fd : Int) (length : Nat) (prot : Prot) (base : Nat),
      ⟨.open "/dev/mem".toList flags,fd⟩ ∈ before ∧ ⟨.mmap length prot fd base,some mem⟩ ∈ before ∧ flags.sync = sync

def neutral (e : Event Sys) : Prop := accessed e = none ∧ ∀ path flags fd, e ≠ ⟨.open path flags,fd⟩

def Through (mem : Nat) (e : Event Sys) : Prop :=
  (∀ other, accessed e = some other → other = mem) ∧ ∀ path flags fd, e ≠ ⟨.open path flags,fd⟩

-- All descriptors of the run carry the flag, so it can be told from any access.
structure MappedAs (sync : Bool) (trace : Trace Sys) : Prop where
  opens : ∀ path flags fd, ⟨.open path flags,fd⟩ ∈ trace → flags.sync = sync
  mapped : MappedWith sync trace

theorem MappedAs.unique (as : MappedAs sync trace) (touches : ∃ e ∈ trace, (accessed e).isSome) :
    MappedWith other trace ↔ other = sync := by
  refine ⟨fun mapped => ?_,fun same => same ▸ as.mapped⟩
  obtain ⟨e,member,some_⟩ := touches
  obtain ⟨mem,access⟩ := Option.isSome_iff_exists.mp some_
  obtain ⟨before,after,split⟩ := List.append_of_mem member
  obtain ⟨flags,fd,_,_,_,opened,_,flag⟩ := mapped before e after mem split access
  rw [← flag]
  exact as.opens _ flags fd (by rw [split]; exact List.mem_append_left _ opened)

theorem mappedAs_neutral (all : ∀ e ∈ trace, neutral e) : MappedAs sync trace where
  opens path flags fd member := absurd rfl ((all _ member).2 path flags fd)
  mapped before e after mem split access := by
    have none_ := (all e (by simp [split])).1
    rw [access] at none_
    cases none_

theorem MappedAs.prepend (as : MappedAs sync trace) (all : ∀ e ∈ before, neutral e) : MappedAs sync (before ++ trace) where
  opens path flags fd member := by
    rcases List.mem_append.mp member with early | late
    · exact absurd rfl ((all _ early).2 path flags fd)
    · exact as.opens path flags fd late
  mapped left e after mem split access := by
    rcases List.append_eq_append_iff.mp split.symm with ⟨middle,rfl,rest⟩ | ⟨middle,rfl,rest⟩
    · cases middle with
      | nil =>
        obtain ⟨_,_,_,_,_,opened,_⟩ := as.mapped [] e after mem rest.symm access
        cases opened
      | cons head tail =>
        simp only [List.cons_append,List.cons.injEq] at rest
        have none_ := (all e (by simp [rest.1])).1
        rw [access] at none_
        cases none_
    · obtain ⟨flags,fd,length,prot,base,opened,mapping,flag⟩ := as.mapped middle e after mem rest access
      exact ⟨flags,fd,length,prot,base,List.mem_append_right _ opened,List.mem_append_right _ mapping,flag⟩

theorem MappedAs.opened {flags : OpenFlags} {fd : Int} (opening : Trace Sys) (all : ∀ e ∈ opening, accessed e = none)
    (only : ∀ path other fd', ⟨.open path other,fd'⟩ ∈ opening → other = flags)
    (file : ⟨.open "/dev/mem".toList flags,fd⟩ ∈ opening) (mapping : ⟨.mmap length prot fd base,some mem⟩ ∈ opening)
    (through : ∀ e ∈ later, Through mem e) : MappedAs flags.sync (opening ++ later) where
  opens path other fd' member := by
    rcases List.mem_append.mp member with early | late
    · rw [only path other fd' early]
    · exact absurd rfl ((through _ late).2 path other fd')
  mapped left e after other split access := by
    rcases List.append_eq_append_iff.mp split.symm with ⟨middle,rfl,rest⟩ | ⟨middle,rfl,rest⟩
    · cases middle with
      | nil =>
        have same := (through e (by rw [← List.nil_append later,← rest]; simp)).1 other access
        subst same
        exact ⟨flags,fd,length,prot,base,by simpa using file,by simpa using mapping,rfl⟩
      | cons head tail =>
        simp only [List.cons_append,List.cons.injEq] at rest
        have none_ := all e (by simp [rest.1])
        rw [access] at none_
        cases none_
    · have same := (through e (by simp [rest])).1 other access
      subst same
      exact ⟨flags,fd,length,prot,base,List.mem_append_left _ file,List.mem_append_left _ mapping,rfl⟩

def Opens (flags : OpenFlags) (trace : Trace Sys) (outcome : Except Fault (Option MmapInfo)) : Prop :=
  (∀ e ∈ trace, accessed e = none) ∧ (∀ path other fd, ⟨.open path other,fd⟩ ∈ trace → other = flags) ∧
  ∀ mapping, outcome = .ok (some mapping) → ∃ fd length prot base, ⟨.open "/dev/mem".toList flags,fd⟩ ∈ trace ∧
    ⟨.mmap length prot fd base,some mapping.mem⟩ ∈ trace

def Opening (flags : OpenFlags) (e : Event Sys) : Prop :=
  accessed e = none ∧ ∀ path other fd, e = ⟨.open path other,fd⟩ → other = flags

theorem opening_open (path : Text) (flags : OpenFlags) (fd : Int) : Opening flags ⟨.open path flags,fd⟩ := by
  refine ⟨rfl,?_⟩
  rintro _ _ _ ⟨⟩
  rfl

theorem opening_of {c : Call} {answer : c.Answer} (idle : accessed ⟨c,answer⟩ = none)
    (other : ∀ path flags, c ≠ .open path flags) : Opening flags ⟨c,answer⟩ :=
  ⟨idle,fun path flags _ same => absurd (congrArg Event.call same) (other path flags)⟩

theorem openMapping_opening (addr : Nat) (flags : OpenFlags) (bytes : Nat) :
    (openMapping addr flags bytes).Safe (Opening flags) (fun _ => True) := by
  have complains (message : Text → Message) : (complain message).Safe (Opening flags) (fun _ => True) :=
    fun _ => ⟨opening_of rfl (by simp),fun _ => ⟨opening_of rfl (by simp),trivial⟩⟩
  simp only [openMapping,Prog.call_bind,Prog.done_bind]
  refine fun page => ⟨opening_of rfl (by simp),fun (fd : Int) => ⟨opening_open _ flags fd,?_⟩⟩
  dsimp only
  split
  · exact (complains _).bind (fun _ => trivial)
  · refine fun mem => ⟨opening_of rfl (by simp),?_⟩
    cases mem with
    | none => exact (complains _).bind (fun _ _ => ⟨opening_of rfl (by simp),trivial⟩)
    | some mem => trivial

theorem openMapping_maps (addr : Nat) (flags : OpenFlags) (bytes : Nat) :
    (openMapping addr flags bytes).All (fun trace outcome => ∀ mapping, outcome = .ok (some mapping) →
      ∃ fd length prot base, ⟨.open "/dev/mem".toList flags,fd⟩ ∈ trace ∧
        ⟨.mmap length prot fd base,some mapping.mem⟩ ∈ trace) := by
  simp only [openMapping,Prog.call_bind,Prog.done_bind]
  intro page (fd : Int)
  dsimp only
  split
  · rintro err reply _ ⟨⟩
  · intro mem
    cases mem with
    | none => rintro err reply reply' _ ⟨⟩
    | some mem =>
      rintro _ ⟨⟩
      exact ⟨fd,_,_,_,.tail _ (.head _),.tail _ (.tail _ (.head _))⟩

theorem openMapping_opens (addr : Nat) (flags : OpenFlags) (bytes : Nat) :
    (openMapping addr flags bytes).All (Opens flags) := by
  refine ((openMapping_opening addr flags bytes).all.and (openMapping_maps addr flags bytes)).mono ?_
  rintro trace outcome ⟨⟨all,_⟩,maps⟩
  exact ⟨fun e member => (all e member).1,fun path other fd member => (all _ member).2 path other fd rfl,maps⟩

theorem mappedAs_idle (all : ∀ e ∈ trace, accessed e = none)
    (only : ∀ path other fd, ⟨.open path other,fd⟩ ∈ trace → other = flags) : MappedAs flags.sync trace where
  opens path other fd member := by rw [only path other fd member]
  mapped before e after mem split access := by
    have none_ := all e (by simp [split])
    rw [access] at none_
    cases none_

theorem mapping_run {rest : Option MmapInfo → Action Int} (addr : Nat) (flags : OpenFlags) (bytes : Nat)
    (refused : (rest none).Safe neutral (fun _ => True))
    (granted : ∀ mapping, (rest (some mapping)).Safe (Through mapping.mem) (fun _ => True)) :
    (openMapping addr flags bytes >>= rest).All (fun trace _ => MappedAs flags.sync trace) := by
  refine Prog.All.bind (openMapping_opens addr flags bytes) ?_ ?_
  · rintro trace reason ⟨all,only,_⟩
    exact mappedAs_idle all only
  · rintro trace opened ⟨all,only,mapping⟩
    cases opened with
    | none =>
      refine refused.all.mono (fun later outcome quiet => mappedAs_idle ?_ ?_)
      · intro e member
        rcases List.mem_append.mp member with early | late
        · exact all e early
        · exact (quiet.1 e late).1
      · intro path other fd member
        rcases List.mem_append.mp member with early | late
        · exact only path other fd early
        · exact absurd rfl ((quiet.1 _ late).2 path other fd)
    | some mapped =>
      obtain ⟨fd,length,prot,base,file,region⟩ := mapping mapped rfl
      exact (granted mapped).all.mono (fun later outcome through =>
        MappedAs.opened trace all only file region through.1)

theorem neutral_then {program : Action α} {next : α → Action Int} (quiet : program.Safe neutral (fun _ => True))
    (rest : ∀ value, (next value).All (fun trace _ => MappedAs sync trace)) :
    (program >>= next).All (fun trace _ => MappedAs sync trace) := by
  refine Prog.All.bind quiet.all ?_ ?_
  · rintro trace reason ⟨all,_⟩
    exact mappedAs_neutral all
  · rintro trace value ⟨all,_⟩
    exact (rest value).mono (fun later outcome as => as.prepend all)

@[simp] theorem neutral_stderr (message : Message) (reply : Unit) : neutral ⟨.stderr message,reply⟩ := ⟨rfl,by simp⟩
@[simp] theorem neutral_iopl (level : Nat) (reply : Int) : neutral ⟨.iopl level,reply⟩ := ⟨rfl,by simp⟩
@[simp] theorem through_stderr (message : Message) (reply : Unit) : Through mem ⟨.stderr message,reply⟩ :=
  ⟨by simp [accessed],by simp⟩
@[simp] theorem through_stdout (text : Text) (reply : Unit) : Through mem ⟨.stdout text,reply⟩ :=
  ⟨by simp [accessed],by simp⟩
@[simp] theorem through_fwrite (bytes : List UInt8) (reply : Nat) : Through mem ⟨.fwrite bytes,reply⟩ :=
  ⟨by simp [accessed],by simp⟩
@[simp] theorem through_munmap (other length : Nat) (reply : Unit) : Through mem ⟨.munmap other length,reply⟩ :=
  ⟨by simp [accessed],by simp⟩
@[simp] theorem through_close (fd : Int) (reply : Unit) : Through mem ⟨.close fd,reply⟩ :=
  ⟨by simp [accessed],by simp⟩
@[simp] theorem through_load (offset : Int) (size : Nat) (data : Buffer size) : Through mem ⟨.load mem offset size,data⟩ :=
  ⟨by simp [accessed],by simp⟩
@[simp] theorem through_store (offset : Int) (bytes : List UInt8) (reply : Unit) :
    Through mem ⟨.store mem offset bytes,reply⟩ := ⟨by simp [accessed],by simp⟩

theorem argAt_neutral (argv : List Arg) (index : Nat) : (argAt argv index).Safe neutral (fun _ => True) := by
  unfold argAt
  split <;> simp

theorem closeMapping_through (mapping : MmapInfo) : (closeMapping mapping).Safe (Through mapping.mem) (fun _ => True) := by
  simp [closeMapping]

theorem closed_through (mapping : MmapInfo) (ret : Int) :
    (closeMapping mapping >>= fun _ => Prog.done ret : Action Int).Safe (Through mapping.mem) (fun _ => True) :=
  (closeMapping_through mapping).bind (by simp)

theorem warnNotAtomic_through (b : Build) : (warnNotAtomic b).Safe (Through mem) (fun _ => True) := by
  unfold warnNotAtomic
  split <;> simp

theorem mmioWriteX_mapped (b : Build) (argv : List Arg) (info : CmdInfo) :
    (mmioWriteX b argv info).All (fun trace _ => MappedAs false trace) := by
  refine neutral_then (argAt_neutral argv 1) (fun addr => neutral_then (argAt_neutral argv 2) (fun value => ?_))
  refine mapping_run _ ⟨.rdwr,false⟩ _ trivial (fun mapping => ?_)
  have access (size value : Nat) : (mmioDoWrite b mapping size value).Safe (Through mapping.mem) (fun _ => True) := by
    simp [mmioDoWrite]
  dsimp only
  split
  · exact (access _ _).bind (closed_through mapping)
  · exact (access _ _).bind (closed_through mapping)
  · exact (access _ _).bind (closed_through mapping)
  · exact (warnNotAtomic_through b).bind (fun _ => (access _ _).bind (closed_through mapping))
  · intro _
    exact ⟨by simp,closed_through mapping (-1)⟩

theorem mmioReadX_mapped (b : Build) (argv : List Arg) (flags : info.privdata = .mmapFileFlags sync) :
    (mmioReadX b argv info).All (fun trace _ => MappedAs sync trace) := by
  refine neutral_then (argAt_neutral argv 1) (fun addr => ?_)
  simp only [mmapFlagsOf,flags]
  refine mapping_run _ ⟨.rdonly,sync⟩ _ trivial (fun mapping => ?_)
  have access (size : Nat) : (mmioDoRead b mapping size).Safe (Through mapping.mem) (fun _ => True) := by
    simp [mmioDoRead]
  dsimp only
  split
  · exact (access _).bind (closed_through mapping)
  · exact (access _).bind (closed_through mapping)
  · exact (access _).bind (closed_through mapping)
  · exact (warnNotAtomic_through b).bind (fun _ => (access _).bind (closed_through mapping))
  · intro _
    exact ⟨by simp,closed_through mapping (-1)⟩

theorem dumpField_through (b : Build) (mem : Nat) (position : Int) (label fields size : Nat) :
    (dumpField b mem position label fields size).Safe (Through mem) (fun _ => True) := by
  unfold dumpField
  by_cases first : fields = 0 <;> by_cases last : (fields + 1) % 4 = 0 <;> simp [first,last]

theorem dumpRange_mapped (b : Build) (sync : Bool) (addr count : Nat) (writeBinary : Bool) :
    (dumpRange b sync addr count writeBinary).All (fun trace _ => MappedAs sync trace) := by
  refine mapping_run _ ⟨.rdonly,sync⟩ _ trivial (fun mapping => ?_)
  cases writeBinary with
  | true =>
    simp only [if_true,Prog.call_bind,Prog.done_bind,Prog.safe_call,through_load,through_fwrite,true_and]
    exact fun _ _ => closed_through mapping _
  | false =>
    refine (dumpLoop_safe b mapping.mem (dumpField_through b mapping.mem) _ _ _ _).bind (fun fields => ?_)
    split
    · intro _
      exact ⟨by simp,closed_through mapping 0⟩
    · exact closed_through mapping 0

theorem mmioDump_mapped (b : Build) (argv : List Arg) (flags : info.privdata = .mmapFileFlags sync) :
    (mmioDump b argv info).All (fun trace _ => MappedAs sync trace) := by
  rw [mmioDump_eq b argv flags]
  refine neutral_then (argAt_neutral argv 1) (fun addr => neutral_then (argAt_neutral argv 2) (fun count => ?_))
  split
  · refine neutral_then (argAt_neutral argv 3) (fun option => ?_)
    split
    · exact dumpRange_mapped b sync _ _ true
    · exact mappedAs_neutral (by simp)
  · exact dumpRange_mapped b sync _ _ false

theorem checkPrereqs_neutral (b : Build) (argv : List Arg) (params : Option PrereqParams) :
    (checkPrereqs b argv params).Safe neutral (fun _ => True) := by
  cases params with
  | none => simp [checkPrereqs]
  | some p =>
    simp only [checkPrereqs]
    split
    · exact (argAt_neutral argv 0).bind (by simp)
    · split
      · simp only [Prog.call_bind,Prog.done_bind,Prog.safe_call,neutral_iopl,true_and]
        intro level
        split <;> simp
      · simp

-- The flag each command of the two groups really maps with.
def CmdInfo.mapsWith (info : CmdInfo) : Bool := if info.entry = .mmioWriteX then false else info.sync

theorem memCmds_entries : ∀ info ∈ memCmds,
    info.entry = .mmioReadX ∨ info.entry = .mmioWriteX ∨ info.entry = .mmioDump := by decide

theorem memCmds_mapped (b : Build) (fuel : Nat) (argv : List Arg) (member : info ∈ memCmds) :
    (runInfo b fuel argv info).All (fun trace _ => MappedAs info.mapsWith trace) := by
  have flags := memCmds_flags info member
  refine neutral_then (checkPrereqs_neutral b argv info.params) (fun checked => ?_)
  split
  · exact mappedAs_neutral (by simp)
  · unfold CmdInfo.mapsWith
    rcases memCmds_entries info member with entry | entry | entry <;> rw [entry]
    · exact mmioReadX_mapped b argv flags
    · exact mmioWriteX_mapped b argv info
    · exact mmioDump_mapped b argv flags

theorem memCmds_sync : (∀ info ∈ mmioCmds, info ∈ memCmds ∧ info.sync = true) ∧
    ∀ info ∈ cacheableMmioCmds, info ∈ memCmds ∧ info.sync = false := by decide

-- In a run that accesses memory the mapping has the flag of the command's group,
-- unless the command is a write of the MMIO group.
theorem cacheability_iff (group : Group) (two : group = .mmio ∨ group = .mem) (b : Build) (fuel : Nat) (argv : List Arg)
    (info : CmdInfo) (member : info ∈ Group.commands b group) (kernel : Kernel Sys σ) (s : σ)
    (touches : ∃ e ∈ ((runInfo b fuel argv info).exec kernel s).trace, (accessed e).isSome) :
    MappedWith (group = .mmio) ((runInfo b fuel argv info).exec kernel s).trace ↔
      ¬ (group = .mmio ∧ info.entry = .mmioWriteX) := by
  have listed : info ∈ memCmds ∧ info.sync = decide (group = .mmio) := by
    rcases two with rfl | rfl
    · exact memCmds_sync.1 info member
    · exact memCmds_sync.2 info member
  rw [((memCmds_mapped b fuel argv listed.1).exec kernel s).unique touches,CmdInfo.mapsWith,listed.2]
  rcases two with rfl | rfl <;> by_cases write : info.entry = .mmioWriteX <;> simp [write]

def mmioWrite8Info : CmdInfo :=
  makeCmdWithParamsSize "mmio_write8" .mmioWriteX (.mmapFileFlags true) mmioWrParams 8

theorem mmio_write8_cacheable :
    let run := (runInfo .x86_64 0 (["mmio_write8","0x1000","1"].map Arg.of) mmioWrite8Info).exec smooth ()
    mmioWrite8Info ∈ Group.commands .x86_64 .mmio ∧ run.outcome = .ok 0 ∧
    (∃ e ∈ run.trace, (accessed e).isSome) ∧ ¬ MappedWith true run.trace := by
  intro run
  have touches : ∃ e ∈ run.trace, (accessed e).isSome := by decide +kernel
  refine ⟨by decide,by decide +kernel,touches,fun synced => ?_⟩
  have all : (runInfo .x86_64 0 (["mmio_write8","0x1000","1"].map Arg.of) mmioWrite8Info).All
      (fun trace _ => MappedAs false trace) := memCmds_mapped .x86_64 0 _ (by decide)
  have as : MappedAs false run.trace := all.exec smooth ()
  exact absurd ((as.unique touches).mp synced) (by decide)

def mmioDumpInfo : CmdInfo := makeCmdWithParams "mmio_dump" .mmioDump (.mmapFileFlags true) mmioDumpParams

theorem cacheability_iff_dump :
    let run := (runInfo .x86_64 0 (["mmio_dump","0x1000","4"].map Arg.of) mmioDumpInfo).exec smooth ()
    run.outcome = .ok 0 ∧ (∃ e ∈ run.trace, (accessed e).isSome) ∧ MappedWith true run.trace := by
  refine ⟨by decide +kernel,by decide +kernel,?_⟩
  exact (cacheability_iff .mmio (.inl rfl) .x86_64 0 _ mmioDumpInfo (by decide) smooth () (by decide +kernel)).mpr
    (by decide)

end Iotools
