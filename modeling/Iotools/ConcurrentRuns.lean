import Iotools.PciSessions
import Iotools.RegisterSessions
import Iotools.SingleAccess
import Iotools.SmbusSessions

namespace Iotools
open Bytes Numeral Interaction

-- Commands that access one operand of a device each, in one instruction.
structure Accessors (commands : ι → Issued b) : Prop where
  single : ∀ i, (commands i).info.entry ∈ accessors
  narrow : ∀ i, (commands i).info.entry ∈ mappers → (commands i).info.bytes ≤ b.word

theorem accessors_once {commands : ι → Issued b} (listed : Accessors commands) {order : List Group} (perm : order.Perm (groups b))
    {fuel : Nat} (enough : order.length ≤ fuel) (i : ι) : Touches b 1 ((commands i).run order fuel) :=
  command_once perm enough (commands i) (listed.single i) (listed.narrow i)

-- Memory is what processes share; the open file and the mapping are each one's own.
def DevMem.parts : DevMem ≃ Memory × Option (Int × OpenFlags) × Option Window where
  toFun s := (s.memory,s.opened,s.window)
  invFun p := ⟨p.1,p.2.1,p.2.2⟩
  left_inv _ := rfl
  right_inv _ := rfl

theorem Machine.isolated (b : Build) (machine : Machine) : Isolated (accesses b) (machine.kernel.split DevMem.parts) := by
  intro c idle s s' own
  cases c with
  | load | store => exact absurd idle (Nat.succ_ne_zero _)
  | mmap length prot fd base =>
    simp only [Kernel.split,Machine.kernel,DevMem.parts,Equiv.coe_fn_symm_mk]
    cases machine.mmap own.1 length prot fd base <;> rfl
  | _ => rfl

-- Commands that run at the same time, and may be killed, leave the devices as the
-- same commands do one after the other, in an order that respects time; one that
-- has ended has done, said and returned what it does at its place in that order.
theorem commands_serialize (b : Build) (order : List Group) (perm : order.Perm (groups b)) (fuel : Nat)
    (enough : order.length ≤ fuel) (ι S L : Type) [DecidableEq ι] (commands : ι → Issued b) (listed : Accessors commands)
    (kernel : Kernel Sys (S × L)) (isolated : Isolated (accesses b) kernel) (own : ι → L) (s : S) (schedule : List ι) :
    let program := fun i => (commands i).run order fuel
    let after := Crowd.interleave (accesses b) kernel schedule (Crowd.start program own s)
    (∀ i, (program i).AtMost (accesses b) 1) ∧
    ∃ turns, Crowd.Linear program own s (accesses b) kernel schedule turns ∧
      after.shared = Crowd.inTurn kernel program own s turns ∧
      ∀ before i later, turns = before ++ i :: later → ∀ outcome, (after.member i).program.result = some outcome →
        let run := (program i).exec kernel (Crowd.inTurn kernel program own s before,own i)
        run.trace = (after.member i).trace ∧ run.outcome = outcome := by
  intro program after
  have single : ∀ i, (program i).AtMost (accesses b) 1 := accessors_once listed perm enough
  exact ⟨single,after.turns,Crowd.interleave_linear isolated single schedule,Crowd.interleave_served isolated single schedule⟩

def wideWrite : Issued .x86_64 := ⟨["iotools","mmio_write32","0x1000","0x12345678"].map Arg.of,
  makeCmdWithParamsSize "mmio_write32" .mmioWriteX (.mmapFileFlags true) mmioWrParams 32,
  ["mmio_write32","0x1000","0x12345678"].map Arg.of,by decide +kernel⟩
def narrowRead : Issued .x86_64 := ⟨["iotools","mem_read16","0x1002"].map Arg.of,
  makeCmdWithParamsSize "mem_read16" .mmioReadX (.mmapFileFlags false) mmioRdParams 16,
  ["mem_read16","0x1002"].map Arg.of,by decide +kernel⟩

theorem commands_serialize_overtaken :
    let machine : Machine := ⟨⟨12,by decide⟩,fun _ => 3,fun _ _ => some 0⟩
    let program := fun i : Bool => (if i then wideWrite else narrowRead).run (groups .x86_64) 9
    let after := Crowd.interleave (accesses .x86_64) (machine.kernel.split DevMem.parts)
      ([true,true,true] ++ List.replicate 7 false ++ [true,true,true]) (Crowd.start program (fun _ => (none,none)) (fun _ => 0))
    after.turns = [false,true] ∧ printed (after.member false).trace = "0x0000\n".toList ∧
    ∃ turns : List Bool, turns.Nodup ∧
      after.shared = Crowd.inTurn (machine.kernel.split DevMem.parts) program (fun _ => (none,none)) (fun _ => 0) turns := by
  intro machine program after
  have listed : Accessors (fun i : Bool => if i then wideWrite else narrowRead) := by
    constructor
    · intro i
      cases i <;> decide
    · intro i _
      cases i <;> decide
  obtain ⟨_,turns,linear,shared,_⟩ := commands_serialize .x86_64 (groups .x86_64) (.refl _) 9 (by decide) Bool Memory
    (Option (Int × OpenFlags) × Option Window) _ listed _ (machine.isolated .x86_64) (fun _ => (none,none)) (fun _ => 0)
    ([true,true,true] ++ List.replicate 7 false ++ [true,true,true])
  exact ⟨by decide +kernel,by decide +kernel,turns,linear.distinct,shared⟩

theorem memory_accessors {machine : Machine} {commands : ι → Issued b} (w64 : b.long = .w64)
    (single : ∀ i, (commands i).info.entry ≠ .mmioDump) (serves : ∀ i, MemoryCommand machine (commands i)) : Accessors commands := by
  have entries (i : ι) : (commands i).info.entry = .mmioReadX ∨ (commands i).info.entry = .mmioWriteX := by
    have granted := (serves i).granted
    unfold Machine.Grants at granted
    cases entry : (commands i).info.entry with
    | mmioReadX => exact .inl rfl
    | mmioWriteX => exact .inr rfl
    | mmioDump => exact absurd entry (single i)
    | _ => rw [entry] at granted; exact granted.elim
  constructor
  · intro i
    rcases entries i with entry | entry <;> rw [entry] <;> decide
  · intro i mapper
    have word : b.word = 8 := by
      unfold Build.word
      rw [w64]
      rfl
    rw [word]
    exact (access_width (mappers_mem _ (commands i).member mapper) (entries i)).2

-- Memory commands at the same time, on a build that moves 64 bits at once: the
-- writes take effect in some order, each of them whole, and every read tells the
-- bytes that the writes before it have left.
theorem memory_concurrent (b : Build) (w64 : b.long = .w64) (order : List Group) (perm : order.Perm (groups b)) (fuel : Nat)
    (enough : order.length ≤ fuel) (machine : Machine) (ι : Type) [DecidableEq ι] (commands : ι → Issued b)
    (single : ∀ i, (commands i).info.entry ≠ .mmioDump) (serves : ∀ i, MemoryCommand machine (commands i))
    (memory : Memory) (schedule : List ι) :
    let program := fun i => (commands i).run order fuel
    let kernel := machine.kernel.split DevMem.parts
    let after := Crowd.interleave (accesses b) kernel schedule (Crowd.start program (fun _ => (none,none)) memory)
    let stored := fun turns : List ι => (Patch.last (turns.map fun i => (commands i).stores)).apply memory
    ∃ turns, Crowd.Linear program (fun _ => (none,none)) memory (accesses b) kernel schedule turns ∧ after.shared = stored turns ∧
      ∀ before i later, turns = before ++ i :: later → ∀ outcome, (after.member i).program.result = some outcome →
        outcome = .ok 0 ∧ (commands i).tells (stored before) (printed (after.member i).trace) := by
  intro program kernel after stored
  refine Crowd.interleave_store (machine.isolated b) (accessors_once (memory_accessors w64 single serves) perm enough)
    (fun _ => True) id (fun i => (commands i).stores)
    (fun i found trace outcome => outcome = .ok 0 ∧ (commands i).tells found (printed trace)) ?_ trivial schedule
  intro i found _ run
  have effect := memoryCommand_effect w64 fuel machine (serves i) (DevMem.parts.symm (found,none,none))
  rw [← (commands i).run_eq perm enough] at effect
  have split : run = _ := Prog.exec_split DevMem.parts machine.kernel (program i) (found,none,none)
  rw [split]
  exact ⟨trivial,effect.2.1,effect.1,effect.2.2⟩

theorem memory_concurrent_overtaken :
    let machine : Machine := ⟨⟨12,by decide⟩,fun _ => 3,fun _ _ => some 0⟩
    let commands := fun i : Bool => if i then wideWrite else narrowRead
    let after := Crowd.interleave (accesses .x86_64) (machine.kernel.split DevMem.parts) [true,false,true,false,true,false,true,false]
      (Crowd.start (fun i => (commands i).run (groups .x86_64) 9) (fun _ => (none,none)) (fun _ => 0))
    after.shared 0x1002 = 0x34 ∧ ∃ turns : List Bool, turns.Nodup ∧
      after.shared = (Patch.last (turns.map fun i => (commands i).stores)).apply (fun _ => 0) := by
  intro machine commands after
  have serves : ∀ i, MemoryCommand machine (commands i) := by
    intro i
    cases i with
    | false => exact ⟨by decide,rfl⟩
    | true => exact ⟨by decide,rfl⟩
  obtain ⟨turns,linear,stored,_⟩ := memory_concurrent .x86_64 rfl (groups .x86_64) (.refl _) 9 (by decide) machine Bool commands
    (by intro i; cases i <;> decide) serves (fun _ => 0) [true,false,true,false,true,false,true,false]
  exact ⟨by decide +kernel,turns,linear.distinct,stored⟩

-- Processes share the content of the configuration files; which of them a
-- process sees and has open is its own.
def ConfigSpace.parts :
    ConfigSpace ≃ (PciFunction → List UInt8) × List PciFunction × (Text → Bool) × Nat × (Int → Option Handle) where
  toFun s := (s.content,s.devices,s.shown,s.next,s.handles)
  invFun p := ⟨p.2.1,p.2.2.1,p.1,p.2.2.2.1,p.2.2.2.2⟩
  left_inv _ := rfl
  right_inv _ := rfl

theorem ConfigSpace.isolated (b : Build) : Isolated (accesses b) (ConfigSpace.kernel.split ConfigSpace.parts) := by
  intro c idle s s' own
  have resolved (path : Text) : (ConfigSpace.parts.symm (s,own)).resolve path = (ConfigSpace.parts.symm (s',own)).resolve path := rfl
  obtain ⟨devices,shown,next,handles⟩ := own
  cases c with
  | read | write => exact absurd idle Nat.one_ne_zero
  | «open» path flags =>
    simp only [Kernel.split,ConfigSpace.kernel]
    rw [resolved]
    cases (ConfigSpace.parts.symm (s',devices,shown,next,handles)).resolve path <;> rfl
  | lseek fd offset =>
    simp only [Kernel.split,ConfigSpace.kernel,ConfigSpace.parts,Equiv.coe_fn_symm_mk]
    cases handles fd with
    | none => rfl
    | some handle =>
      dsimp only
      split <;> rfl
  | _ => rfl

def configStore (content : PciFunction → List UInt8) (cell : PciFunction × Nat) : UInt8 := (content cell.1).getD cell.2 0

theorem pci_accessors {commands : ι → Issued b} (serves : ∀ i, PciCommand s (commands i)) : Accessors commands := by
  constructor
  · intro i
    rcases (serves i).accesses with entry | entry <;> rw [entry] <;> decide
  · intro i mapper
    rcases (serves i).accesses with entry | entry <;> rw [entry] at mapper <;> exact absurd mapper (by decide)

theorem pci_concurrent (b : Build) (order : List Group) (perm : order.Perm (groups b)) (fuel : Nat) (enough : order.length ≤ fuel)
    (s : ConfigSpace) (ι : Type) [DecidableEq ι] (commands : ι → Issued b) (serves : ∀ i, PciCommand s (commands i))
    (schedule : List ι) :
    let program := fun i => (commands i).run order fuel
    let own := fun _ : ι => (ConfigSpace.parts s).2
    let kernel := ConfigSpace.kernel.split ConfigSpace.parts
    let after := Crowd.interleave (accesses b) kernel schedule (Crowd.start program own s.content)
    let files := fun turns : List ι => (Patch.last (turns.map fun i => (commands i).configures)).apply s.byte
    ∃ turns, Crowd.Linear program own s.content (accesses b) kernel schedule turns ∧ configStore after.shared = files turns ∧
      ∀ before i later, turns = before ++ i :: later → ∀ outcome, (after.member i).program.result = some outcome →
        outcome = .ok 0 ∧ (commands i).lists (files before) (printed (after.member i).trace) := by
  intro program own kernel after files
  refine Crowd.interleave_store (ConfigSpace.isolated b) (accessors_once (pci_accessors serves) perm enough)
    (fun content => ∀ d, (content d).length = (s.content d).length) configStore (fun i => (commands i).configures)
    (fun i found trace outcome => outcome = .ok 0 ∧ (commands i).lists found (printed trace)) ?_ (fun _ => rfl) schedule
  intro i content sizes run
  have keeps : ConfigSpace.Keeps s (ConfigSpace.parts.symm (content,own i)) := ⟨rfl,rfl,sizes⟩
  obtain ⟨returned,kept,stores,lists⟩ := pciCommand_effect fuel ((serves i).later keeps)
  rw [← (commands i).run_eq perm enough] at returned kept stores lists
  have split : run = _ := Prog.exec_split ConfigSpace.parts ConfigSpace.kernel (program i) (content,own i)
  rw [split]
  exact ⟨(keeps.trans kept).sizes,stores,returned,lists⟩

def configWrite : Issued .ppc64 := ⟨["iotools","pci_write32","1","2","3","4","0x10","0x12345678"].map Arg.of,
  makeCmdWithParamsSize "pci_write32" .pciWriteX .null pciWrParams 32,
  ["pci_write32","1","2","3","4","0x10","0x12345678"].map Arg.of,by decide +kernel⟩
def configRead : Issued .ppc64 := ⟨["iotools","pci_read16","1","2","3","4","0x12"].map Arg.of,
  makeCmdWithParamsSize "pci_read16" .pciReadX .null pciRdParams 16,
  ["pci_read16","1","2","3","4","0x12"].map Arg.of,by decide +kernel⟩

theorem pci_concurrent_overtaken :
    let s : ConfigSpace := ⟨[⟨1,2,3,4⟩],fun _ => true,fun _ => List.replicate 256 0,3,fun _ => none⟩
    let commands := fun i : Bool => if i then configWrite else configRead
    let after := Crowd.interleave (accesses .ppc64) (ConfigSpace.kernel.split ConfigSpace.parts)
      [true,true,false,false,false,true,true,false,false] (Crowd.start (fun i => (commands i).run (groups .ppc64) 9)
        (fun _ => (ConfigSpace.parts s).2) s.content)
    printed (after.member false).trace = "0x0000\n".toList ∧ ∃ turns : List Bool, turns.Nodup ∧
      configStore after.shared = (Patch.last (turns.map fun i => (commands i).configures)).apply s.byte := by
  intro s commands after
  have reached (c : Issued .ppc64) (place : PciAddress) (named : c.place = some place) (listed : place.function ∈ s.devices)
      (inside : place.reg + c.info.bytes ≤ 256) : ∀ address, c.place = some address →
      s.Reaches address.function ∧ address.reg + c.info.bytes ≤ (s.content address.function).length := by
    intro address located
    cases Option.some.inj (named.symm.trans located)
    have size : (s.content place.function).length = 256 := List.length_replicate
    exact ⟨⟨listed,.inl rfl⟩,by rw [size]; exact inside⟩
  have serves : ∀ i, PciCommand s (commands i) := by
    intro i
    cases i with
    | false => exact ⟨.inl rfl,by decide,reached configRead ⟨1,2,3,4,18⟩ (by decide +kernel) (by decide) (by decide)⟩
    | true => exact ⟨.inr rfl,by decide,reached configWrite ⟨1,2,3,4,16⟩ (by decide +kernel) (by decide) (by decide)⟩
  obtain ⟨turns,linear,files,_⟩ := pci_concurrent .ppc64 (groups .ppc64) (.refl _) 9 (by decide) s Bool commands serves
    [true,true,false,false,false,true,true,false,false]
  exact ⟨by decide +kernel,turns,linear.distinct,files⟩

def RegisterFiles.parts : RegisterFiles ≃ (Text → Nat → Nat) × (Text → Bool) × Nat × (Int → Option RegisterHandle) where
  toFun s := (s.value,s.present,s.next,s.handles)
  invFun p := ⟨p.2.1,p.1,p.2.2.1,p.2.2.2⟩
  left_inv _ := rfl
  right_inv _ := rfl

theorem RegisterFiles.isolated (b : Build) : Isolated (accesses b) ((RegisterFiles.kernel b.order).split RegisterFiles.parts) := by
  intro c idle s s' own
  have shown : (RegisterFiles.parts.symm (s,own)).present = (RegisterFiles.parts.symm (s',own)).present := rfl
  obtain ⟨present,next,handles⟩ := own
  cases c with
  | read | write => exact absurd idle Nat.one_ne_zero
  | «open» path flags =>
    simp only [Kernel.split,RegisterFiles.kernel,shown]
    split <;> rfl
  | lseek fd offset =>
    simp only [Kernel.split,RegisterFiles.kernel,RegisterFiles.parts,Equiv.coe_fn_symm_mk]
    cases handles fd with
    | none => rfl
    | some handle =>
      dsimp only
      split <;> rfl
  | _ => rfl

def registerStore (value : Text → Nat → Nat) (r : Register) : Nat := value r.path r.number

theorem register_accessors {commands : ι → Issued b} (serves : ∀ i, RegisterCommand s (commands i)) : Accessors commands := by
  have both : ∀ entry ∈ registerReaders ++ registerWriters, entry ∈ accessors ∧ entry ∉ mappers := by decide
  constructor
  · intro i
    exact (both _ (serves i).accesses).1
  · intro i mapper
    exact absurd mapper (both _ (serves i).accesses).2

theorem register_concurrent (b : Build) (order : List Group) (perm : order.Perm (groups b)) (fuel : Nat)
    (enough : order.length ≤ fuel) (s : RegisterFiles) (ι : Type) [DecidableEq ι] (commands : ι → Issued b)
    (serves : ∀ i, RegisterCommand s (commands i)) (schedule : List ι) :
    let program := fun i => (commands i).run order fuel
    let own := fun _ : ι => (RegisterFiles.parts s).2
    let kernel := (RegisterFiles.kernel b.order).split RegisterFiles.parts
    let after := Crowd.interleave (accesses b) kernel schedule (Crowd.start program own s.value)
    let store := fun turns : List ι => (Patch.last (turns.map fun i => (commands i).sets)).apply s.held
    ∃ turns, Crowd.Linear program own s.value (accesses b) kernel schedule turns ∧ registerStore after.shared = store turns ∧
      ∀ before i later, turns = before ++ i :: later → ∀ outcome, (after.member i).program.result = some outcome →
        ∃ rc, outcome = .ok rc ∧ (commands i).answers (store before) (printed (after.member i).trace) rc := by
  intro program own kernel after store
  refine Crowd.interleave_store (RegisterFiles.isolated b) (accessors_once (register_accessors serves) perm enough)
    (fun _ => True) registerStore (fun i => (commands i).sets)
    (fun i found trace outcome => ∃ rc, outcome = .ok rc ∧ (commands i).answers found (printed trace) rc) ?_ trivial schedule
  intro i value _ run
  have later : RegisterCommand (RegisterFiles.parts.symm (value,own i)) (commands i) :=
    ⟨(serves i).accesses,(serves i).admitted,(serves i).reached⟩
  obtain ⟨rc,returned,_,held,answers⟩ := registerCommand_effect fuel later
  rw [← (commands i).run_eq perm enough] at returned held answers
  have split : run = _ := Prog.exec_split RegisterFiles.parts (RegisterFiles.kernel b.order) (program i) (value,own i)
  rw [split]
  exact ⟨trivial,held,rc,returned,answers⟩

def msrWrite : Issued .x86_64 := ⟨["iotools","wrmsr","1","0x1b","7"].map Arg.of,
  makeCmdWithParams "wrmsr" .wrMsr .null (fixedArgs 4 "<cpu> <msr> <data>" 0),["wrmsr","1","0x1b","7"].map Arg.of,by decide +kernel⟩
def msrRead : Issued .x86_64 := ⟨["iotools","rdmsr","1","0x1b"].map Arg.of,
  makeCmdWithParams "rdmsr" .rdMsr .null (fixedArgs 3 "<cpu> <msr>" 0),["rdmsr","1","0x1b"].map Arg.of,by decide +kernel⟩

-- A write that is cut off behind its transfer has taken effect.
theorem register_concurrent_killed :
    let s : RegisterFiles := ⟨fun _ => true,fun _ _ => 0,3,fun _ => none⟩
    let commands := fun i : Bool => if i then msrWrite else msrRead
    let after := Crowd.interleave (accesses .x86_64) ((RegisterFiles.kernel .little).split RegisterFiles.parts)
      [true,false,true,false,true,false,false,false] (Crowd.start (fun i => (commands i).run (groups .x86_64) 9)
        (fun _ => (RegisterFiles.parts s).2) s.value)
    printed (after.member false).trace = "0x0000000000000007\n".toList ∧ ∃ turns : List Bool, turns.Nodup ∧
      registerStore after.shared = (Patch.last (turns.map fun i => (commands i).sets)).apply s.held := by
  intro s commands after
  have reached (c : Issued .x86_64) (named : c.register = some (.msr 1 0x1b)) :
      ∀ r, c.register = some r → s.present r.path = true ∧ r.Placed .x86_64 := by
    intro r found
    cases Option.some.inj (named.symm.trans found)
    exact ⟨rfl,by simp [Register.Placed]⟩
  have serves : ∀ i, RegisterCommand s (commands i) := by
    intro i
    cases i with
    | false => exact ⟨by decide,by decide,reached msrRead (by decide +kernel)⟩
    | true => exact ⟨by decide,by decide,reached msrWrite (by decide +kernel)⟩
  obtain ⟨turns,linear,store,_⟩ := register_concurrent .x86_64 (groups .x86_64) (.refl _) 9 (by decide) s Bool commands serves
    [true,false,true,false,true,false,false,false]
  exact ⟨by decide +kernel,turns,linear.distinct,store⟩

def Bus.parts : Bus ≃ (Text → UInt8 → UInt8 → UInt8) × Option (Text × UInt8) where
  toFun s := (s.cells,s.handle)
  invFun p := ⟨p.1,p.2⟩
  left_inv _ := rfl
  right_inv _ := rfl

theorem Bus.isolated (b : Build) : Isolated (accesses b) ((Bus.kernel b.order).split Bus.parts) := by
  intro c idle s s' own
  cases c with
  | ioctlSmbus | ioctlRdwr => exact absurd idle Nat.one_ne_zero
  | _ => rfl

def busStore (cells : Text → UInt8 → UInt8 → UInt8) (cell : RegisterCell) : UInt8 := cells (busFile cell.1) cell.2.1 cell.2.2

theorem smbus_accessors {commands : ι → Issued b} (serves : ∀ i, SmbusCommand (commands i)) : Accessors commands := by
  have both : ∀ info ∈ smbusCmds, info.entry ∈ accessors ∧ info.entry ∉ mappers := by decide
  constructor
  · intro i
    exact (both _ (serves i).listed).1
  · intro i mapper
    exact absurd mapper (both _ (serves i).listed).2

-- SMBus commands at the same time, on the same buses and devices or not: a slave
-- chosen by one is not the slave another talks to.
theorem smbus_concurrent (b : Build) (order : List Group) (perm : order.Perm (groups b)) (fuel : Nat)
    (enough : order.length ≤ fuel) (s : Bus) (ι : Type) [DecidableEq ι] (commands : ι → Issued b)
    (serves : ∀ i, SmbusCommand (commands i)) (schedule : List ι) :
    let program := fun i => (commands i).run order fuel
    let own := fun _ : ι => s.handle
    let kernel := (Bus.kernel b.order).split Bus.parts
    let after := Crowd.interleave (accesses b) kernel schedule (Crowd.start program own s.cells)
    let registers := fun turns : List ι => registersAfter (turns.map commands) s.byte
    ∃ turns, Crowd.Linear program own s.cells (accesses b) kernel schedule turns ∧ busStore after.shared = registers turns ∧
      ∀ before i later, turns = before ++ i :: later → ∀ outcome, (after.member i).program.result = some outcome →
        (outcome = .ok 0 ↔ (commands i).access.isSome) ∧
        printed (after.member i).trace = ((commands i).reads (registers before)).getD [] := by
  intro program own kernel after registers
  have same (turns : List ι) : registers turns = (Patch.last (turns.map fun i => (commands i).deposits)).apply s.byte := by
    simp only [registers,registersAfter,List.map_map]
    rfl
  simp only [same]
  refine Crowd.interleave_store (Bus.isolated b) (accessors_once (smbus_accessors serves) perm enough)
    (fun _ => True) busStore (fun i => (commands i).deposits)
    (fun i found trace outcome => (outcome = .ok 0 ↔ (commands i).access.isSome) ∧
      printed trace = ((commands i).reads found).getD []) ?_ trivial schedule
  intro i cells _ run
  have ends := smbusCommand_effect (serves i) fuel (Bus.parts.symm (cells,own i))
  rw [← (commands i).run_eq perm enough] at ends
  have split : run = _ := Prog.exec_split Bus.parts (Bus.kernel b.order) (program i) (cells,own i)
  rw [split]
  exact ⟨trivial,ends.1,ends.2.1,ends.2.2⟩

def firstSlave : Issued .ppc64 := ⟨["iotools","smbus_write16","1","0x50","0x10","0x1122"].map Arg.of,
  makeCmdWithParams "smbus_write16" .smbusWrite (.smbusOp ⟨.size16,.write⟩) smbusWriteParams,
  ["smbus_write16","1","0x50","0x10","0x1122"].map Arg.of,by decide +kernel⟩
def secondSlave : Issued .ppc64 := ⟨["iotools","smbus_write16","1","0x51","0x10","0x3344"].map Arg.of,
  makeCmdWithParams "smbus_write16" .smbusWrite (.smbusOp ⟨.size16,.write⟩) smbusWriteParams,
  ["smbus_write16","1","0x51","0x10","0x3344"].map Arg.of,by decide +kernel⟩

theorem smbus_concurrent_slaves :
    let s : Bus := ⟨fun _ _ _ => 0,none⟩
    let commands := fun i : Bool => if i then firstSlave else secondSlave
    let after := Crowd.interleave (accesses .ppc64) ((Bus.kernel .big).split Bus.parts) ((List.replicate 8 [true,false]).flatten)
      (Crowd.start (fun i => (commands i).run (groups .ppc64) 9) (fun _ => s.handle) s.cells)
    busStore after.shared (1,0x50,0x10) = 0x22 ∧ busStore after.shared (1,0x51,0x10) = 0x44 ∧
    ∃ turns : List Bool, turns.Nodup ∧ busStore after.shared = registersAfter (turns.map commands) s.byte := by
  intro s commands after
  have serves : ∀ i, SmbusCommand (commands i) := by
    intro i
    cases i with
    | false => exact ⟨by decide,by decide⟩
    | true => exact ⟨by decide,by decide⟩
  obtain ⟨turns,linear,registers,_⟩ := smbus_concurrent .ppc64 (groups .ppc64) (.refl _) 9 (by decide) s Bool commands serves
    ((List.replicate 8 [true,false]).flatten)
  exact ⟨by decide +kernel,by decide +kernel,turns,linear.distinct,registers⟩

end Iotools
