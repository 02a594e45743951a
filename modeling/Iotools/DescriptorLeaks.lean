import Iotools.DescriptorBalance
import Iotools.IoAccess
import Iotools.WritereadExchange

namespace Iotools
open Bytes Numeral Interaction

def attaches : Event Sys → Bool
  | ⟨.ioctlSlave _ _ _,result⟩ => decide ((0 : Int) ≤ result)
  | _ => false

def listsProcfs : Event Sys → Bool
  | ⟨.opendir path,some _⟩ => decide (path = procfsBaseDir)
  | _ => false

def CountRefused (b : Build) (argv : List Arg) : Prop :=
  (operandAt b argv 3 .zero .writeRead).isSome = true ∧ ∀ count, byteAt b argv 4 = some count → blockMax < count.toNat

-- pci_rw.c closes the file only behind a whole transfer and never closes the
-- directories of procfs, io_in and io_out only close behind a failed seek, and
-- smbus_writeread returns without a close when the count is refused.
def LeavesOpen (b : Build) (argv : List Arg) (info : CmdInfo) (trace : Trace Sys) : Prop :=
  match info.entry with
  | .pciReadX | .pciWriteX => trace.any opensFile = true ∧ trace.any (movesAll info.bytes) = false
  | .pciList => trace.any listsProcfs = true
  | .ioReadX | .ioWriteX => trace.any opensFile = true ∧ trace.any seeksFile = true
  | .smbusWriteread => trace.any attaches = true ∧ CountRefused b argv
  | _ => False

-- A run that returned used nothing that was not open, and left something open
-- exactly when the condition says so.
def Settled (leaves : Trace Sys → Prop) (trace : Trace Sys) (outcome : Except Fault Int) : Prop :=
  ∀ ret, outcome = .ok ret → (monitor descriptors trace []).isSome = true ∧ (Balanced trace ↔ ¬ leaves trace)

theorem settled_of {leaves : Trace Sys → Prop} (followed : monitor descriptors trace [] = some held)
    (exact_ : held = [] ↔ ¬ leaves trace) : Settled leaves trace outcome := by
  intro ret _
  rw [Balanced,followed,Option.some_inj]
  exact ⟨rfl,exact_⟩

theorem Clean.settled {program : Action Int} (clean : Clean program []) {leaves : Trace Sys → Prop}
    (never : ∀ trace, ¬ leaves trace) : program.All (Settled leaves) := by
  apply Prog.All.mono clean
  intro trace outcome ends ret returned
  obtain ⟨held,followed,rfl⟩ := ends ret returned
  exact settled_of followed (by simp [never]) ret returned

theorem apart_unnoticed (none_ : apart e) (size : Nat) :
    opensFile e = false ∧ seeksFile e = false ∧ movesAll size e = false ∧ attaches e = false ∧ listsProcfs e = false := by
  have empty := none_ []
  obtain ⟨c,answer⟩ := e
  cases c with
  | «open» path flags =>
    refine ⟨?_,rfl,rfl,rfl,rfl⟩
    by_cases opened : (0 : Int) ≤ answer
    · simp [descriptors,opened] at empty
    · simp [opensFile,opened]
  | opendir path =>
    refine ⟨rfl,rfl,rfl,rfl,?_⟩
    cases answer with
    | none => rfl
    | some entries => simp [descriptors] at empty
  | lseek fd offset => simp [descriptors,using_] at empty
  | read fd count => simp [descriptors,using_] at empty
  | write fd bytes => simp [descriptors,using_] at empty
  | ioctlSlave fd force address => simp [descriptors,using_] at empty
  | _ => exact ⟨rfl,rfl,rfl,rfl,rfl⟩

theorem apart_monitor {trace : Trace Sys} (all : ∀ e ∈ trace, apart e) (held : List Descriptor) :
    monitor descriptors trace held = some held := by
  induction trace with
  | nil => rfl
  | cons e rest ih =>
    rw [monitor_cons,all e (by simp) held]
    exact ih (fun e member => all e (by simp [member]))

theorem apart_any {before : Trace Sys} (all : ∀ e ∈ before, apart e) {p : Event Sys → Bool} (unnoticed : ∀ e, apart e → p e = false)
    (trace : Trace Sys) : (before ++ trace).any p = trace.any p := by
  have none_ : before.any p = false := by
    rw [List.any_eq_false]
    intro e member
    simp [unnoticed e (all e member)]
  rw [List.any_append,none_,Bool.false_or]

theorem leavesOpen_prepend {before : Trace Sys} (all : ∀ e ∈ before, apart e) (b : Build) (argv : List Arg) (info : CmdInfo)
    (trace : Trace Sys) : LeavesOpen b argv info (before ++ trace) ↔ LeavesOpen b argv info trace := by
  have opens := apart_any all (fun e none_ => (apart_unnoticed none_ 0).1) trace
  have seeks := apart_any all (fun e none_ => (apart_unnoticed none_ 0).2.1) trace
  have moves := apart_any all (fun e none_ => (apart_unnoticed none_ info.bytes).2.2.1) trace
  have attached := apart_any all (fun e none_ => (apart_unnoticed none_ 0).2.2.2.1) trace
  have lists := apart_any all (fun e none_ => (apart_unnoticed none_ 0).2.2.2.2) trace
  unfold LeavesOpen
  rw [opens,seeks,moves,attached,lists]

theorem settled_prepend {before : Trace Sys} (all : ∀ e ∈ before, apart e) (settled : Settled (LeavesOpen b argv info) trace outcome) :
    Settled (LeavesOpen b argv info) (before ++ trace) outcome := by
  intro ret returned
  have followed : monitor descriptors (before ++ trace) [] = monitor descriptors trace [] := by
    rw [monitor_append,apart_monitor all]
    rfl
  rw [Balanced,followed,leavesOpen_prepend all]
  exact settled ret returned

theorem openDevice_hands (segment bus device function : Nat) (mode : AccessMode) :
    Hands (openDevice segment bus device function mode) [] (fun fd after => after = if fd < 0 then [] else [.file fd]) := by
  simp only [openDevice,Prog.call_bind,Prog.done_bind]
  apply hands_open
  · intro sysfs negative
    rw [if_pos negative]
    apply hands_open
    · intro procfs failed
      rw [if_pos failed]
      exact (apart_complain _).then (fun _ => hands_done (by rw [if_pos failed]))
    · intro procfs valid
      rw [if_neg valid]
      exact hands_done (by rw [if_neg valid])
  · intro sysfs valid
    simp only [if_neg valid,Prog.pure_eq,Prog.done_bind]
    exact hands_done (by rw [if_neg valid])

theorem pciDoRead_hands (b : Build) (fd : Int) (size : Nat) (leToHost : Build → Nat → Nat) :
    Hands (pciDoRead b fd size leToHost) [.file fd] (fun ret after => after = if ret = 0 then [] else [.file fd]) := by
  simp only [pciDoRead,Prog.call_bind,Prog.done_bind]
  apply hands_on (fun answer => on_read fd size answer)
  intro answer
  cases answer with
  | none => exact (apart_complain _).then (fun _ => hands_done rfl)
  | some bytes =>
    dsimp only
    split
    · exact (apart_complain _).then (fun _ => hands_done rfl)
    · exact hands_apart (fun _ => apart_stdout _ _) (fun _ => hands_close (hands_done rfl))

theorem pciDoWrite_hands (b : Build) (fd : Int) (size : Nat) (hostToLe : Build → Nat → Nat) (ldata : Nat) :
    Hands (pciDoWrite b fd size hostToLe ldata) [.file fd] (fun ret after => after = if ret = 0 then [] else [.file fd]) := by
  simp only [pciDoWrite,Prog.call_bind,Prog.done_bind]
  apply hands_on (fun written => on_write fd _ written)
  intro written
  split
  · exact (apart_complain _).then (fun _ => hands_done rfl)
  · exact hands_close (hands_done rfl)

theorem any_countP (p : Event Sys → Bool) (trace : Trace Sys) : trace.any p = true ↔ 0 < trace.countP p := by
  rw [List.any_eq_true,List.countP_pos_iff]

def pciLeaves (size : Nat) (trace : Trace Sys) : Prop := trace.any opensFile = true ∧ trace.any (movesAll size) = false

-- open_device and the seek, then a transfer that closes only when it is whole.
theorem pci_settled {address : PciAddress} {mode : AccessMode} {transfer : Int → Action Int}
    (stage : ∀ fd, (transfer fd).All (TransferStage size reads))
    (hands : ∀ fd, Hands (transfer fd) [.file fd] (fun ret after => after = if ret = 0 then [] else [.file fd])) :
    (openDevice address.seg address.bus address.dev address.func mode >>= fun fd =>
      if fd < 0 then .done (-1)
      else .call (.lseek fd address.reg) fun position =>
        if position < 0 then complain (.lseek address.reg) >>= fun _ => .done (-1) else transfer fd).All
      (Settled (pciLeaves size)) := by
  apply Prog.All.bind ((openDevice_opens address.seg address.bus address.dev address.func mode size).and
    (openDevice_hands address.seg address.bus address.dev address.func mode))
  · rintro trace reason ⟨⟨fd,failed,_⟩,_⟩
    cases failed
  · rintro before fd ⟨⟨_,returned,calms,_,opens⟩,opened⟩
    cases returned
    obtain ⟨held,followed,rfl⟩ := opened fd rfl
    have short := calm_any calms
    have countsOpen := any_countP opensFile before
    split
    · rename_i negative
      rw [if_pos negative] at followed opens
      rw [Prog.all_done,List.append_nil]
      apply settled_of followed
      simp [pciLeaves,countsOpen,opens]
    · rename_i valid
      rw [if_neg valid] at followed opens
      have someOpen : before.any opensFile = true := countsOpen.mpr (by omega)
      intro position
      dsimp only
      split
      · intro err _
        have stays : monitor descriptors (before ++ [⟨.lseek fd address.reg,position⟩,⟨.strerror,err⟩,
            ⟨.stderr (.lseek address.reg err),()⟩]) [] = some [.file fd] := by
          rw [monitor_append,followed]
          simp [monitor_cons,descriptors,using_]
        apply settled_of stays
        simp [pciLeaves,someOpen,short,movesAll]
      · apply ((stage fd).and (hands fd)).mono
        rintro later outcome ⟨⟨_,moved,_⟩,ends⟩ ret rfl
        obtain ⟨after,then_,rfl⟩ := ends ret rfl
        have whole : ret = 0 ↔ later.any (movesAll size) = true := by
          rw [← moved,Except.ok.injEq]
        have rest : monitor descriptors (before ++ ⟨.lseek fd address.reg,position⟩ :: later) [] =
            some (if ret = 0 then [] else [.file fd]) := by
          rw [monitor_append,followed]
          simpa [monitor_cons,descriptors,using_] using then_
        apply settled_of rest _ ret rfl
        have moves : (before ++ ⟨.lseek fd address.reg,position⟩ :: later).any (movesAll size) = later.any (movesAll size) := by
          rw [List.any_append,short,List.any_cons]
          rfl
        rw [pciLeaves,moves,List.any_append,someOpen]
        by_cases zero : ret = 0
        · simp [zero,whole.mp zero]
        · simp [zero,mt whole.mpr zero]

theorem pciReadX_settled (b : Build) (sized : info.sizedata = some 8 ∨ info.sizedata = some 16 ∨ info.sizedata = some 32)
    (located : pciAddress b argv (5 < argv.length) = .done address) :
    (pciReadX b argv info).All (Settled (pciLeaves info.bytes)) := by
  obtain ⟨leToHost,_,run⟩ := pciReadX_sized b sized located
  rw [run]
  exact pci_settled (fun fd => pciDoRead_transfer b fd _ _) (fun fd => pciDoRead_hands b fd _ _)

theorem pciWriteX_settled (b : Build) (sized : info.sizedata = some 8 ∨ info.sizedata = some 16 ∨ info.sizedata = some 32)
    (located : pciAddress b argv (6 < argv.length) = .done address)
    (given : argv[if 6 < argv.length then 6 else 5]? = some data) :
    (pciWriteX b argv info).All (Settled (pciLeaves info.bytes)) := by
  obtain ⟨hostToLe,_,run⟩ := pciWriteX_sized b sized located given
  rw [run]
  exact pci_settled (fun fd => pciDoWrite_transfer b fd _ _ _) (fun fd => pciDoWrite_hands b fd _ _ _)

theorem listSysfsEntries_apart (entries : List Dirent) : Apart (listSysfsEntries entries) := by
  induction entries with
  | nil => trivial
  | cons de rest ih =>
    simp only [listSysfsEntries]
    split
    · exact fun _ => ⟨apart_stdout _ _,ih⟩
    · exact ih

theorem listProcfsBus_apart (bus : Int) (entries : List Dirent) : Apart (listProcfsBus bus entries) := by
  induction entries with
  | nil => trivial
  | cons de rest ih =>
    simp only [listProcfsBus]
    split
    · exact fun _ => ⟨apart_stdout _ _,ih⟩
    · exact ih

-- Each directory stays open, so their number only grows.
theorem listProcfsEntries_grows (entries : List Dirent) (held : List Descriptor) :
    Hands (listProcfsEntries entries) held (fun _ after => held.length ≤ after.length) := by
  induction entries generalizing held with
  | nil => exact hands_done (le_refl _)
  | cons de rest ih =>
    simp only [listProcfsEntries]
    split
    · apply hands_call
      intro answer
      cases answer with
      | none => exact ⟨held,rfl,(apart_complain _).then (fun _ => hands_done (le_refl _))⟩
      | some inner =>
        refine ⟨_,rfl,(listProcfsBus_apart _ inner).then (fun _ => ?_)⟩
        apply (ih _).mono
        intro _ _ after more
        exact le_trans (Nat.le_succ _) more
    · exact ih held

theorem pciListSysfs_settled : pciListSysfs.All (fun trace outcome =>
    ∀ ret, outcome = .ok ret → monitor descriptors trace [] = some [] ∧ trace.any listsProcfs = false) := by
  have other : sysfsBaseDir ≠ procfsBaseDir := by decide
  intro answer
  cases answer with
  | none =>
    intro err _ ret _
    exact ⟨rfl,rfl⟩
  | some entries =>
    apply Prog.All.bind (listSysfsEntries_apart entries).all
    · intro trace reason _ ret returned
      cases returned
    · rintro trace _ ⟨all,_⟩ _ ret _
      have none_ := apart_any all (fun e none_ => (apart_unnoticed none_ 0).2.2.2.2) [⟨.closedir sysfsBaseDir,()⟩]
      constructor
      · rw [monitor_cons]
        show monitor descriptors (trace ++ [⟨.closedir sysfsBaseDir,()⟩]) [.dir sysfsBaseDir] = some []
        rw [monitor_append,apart_monitor all]
        simp [monitor_cons,descriptors,release]
      · rw [List.any_cons,none_]
        simp [listsProcfs,other]

def procfsLeaves (trace : Trace Sys) : Prop := trace.any listsProcfs = true

theorem pciListProcfs_settled : pciListProcfs.All (Settled procfsLeaves) := by
  intro answer
  cases answer with
  | none =>
    intro err _
    simp [Prog.bind,Settled,Balanced,monitor_cons,descriptors,procfsLeaves,listsProcfs]
  | some entries =>
    apply Prog.All.mono (listProcfsEntries_grows entries [.dir procfsBaseDir])
    intro trace outcome ends ret returned
    obtain ⟨after,followed,more⟩ := ends ret returned
    have open_ : after ≠ [] := by
      rintro rfl
      cases more
    have whole : monitor descriptors (⟨.opendir procfsBaseDir,some entries⟩ :: trace) [] = some after := followed
    exact settled_of whole (by simp [procfsLeaves,listsProcfs,open_]) ret returned

theorem pciList_settled (argv : List Arg) (info : CmdInfo) : (pciList argv info).All (Settled procfsLeaves) := by
  apply Prog.All.bind pciListSysfs_settled
  · intro trace reason _ ret returned
    cases returned
  · intro before ret ends
    obtain ⟨closed,unlisted⟩ := ends ret rfl
    split
    · apply Prog.All.mono pciListProcfs_settled
      intro trace outcome settled ret returned
      rw [Balanced,procfsLeaves,monitor_append,closed,List.any_append,unlisted]
      exact settled ret returned
    · rw [Prog.pure_eq,Prog.all_done,List.append_nil]
      exact settled_of closed (by simp [procfsLeaves,unlisted])

def portLeaves (trace : Trace Sys) : Prop := trace.any opensFile = true ∧ trace.any seeksFile = true

theorem ioIn_settled (iobase : Int) (data : List UInt8) (text : List UInt8 → Text) :
    (ioIn iobase data >>= fun data => .call (.stdout (text data)) fun _ => .done 0).All (Settled portLeaves) := by
  simp only [ioIn,Prog.call_bind,Prog.done_bind]
  intro (fd : Int)
  dsimp only
  by_cases failed : fd < 0
  · have closed : ¬ 0 ≤ fd := by omega
    rw [if_pos failed]
    intro err _ _
    simp [Settled,Balanced,monitor_cons,descriptors,closed,portLeaves,seeksFile]
  · have opened : 0 ≤ fd := by omega
    rw [if_neg failed]
    intro (position : Int)
    dsimp only
    by_cases refused : position = -1
    · rw [if_pos refused]
      intro err _ _ _
      simp [Settled,Balanced,monitor_cons,descriptors,release,using_,opened,portLeaves,opensFile,seeksFile,refused]
    · rw [if_neg refused]
      intro answer
      cases answer <;> intro _ <;>
        simp [Settled,Balanced,monitor_cons,descriptors,using_,opened,portLeaves,opensFile,seeksFile,refused]

theorem ioOut_settled (iobase : Int) (data : List UInt8) :
    (ioOut iobase data >>= fun _ => .done 0).All (Settled portLeaves) := by
  simp only [ioOut,Prog.call_bind,Prog.done_bind]
  intro (fd : Int)
  dsimp only
  by_cases failed : fd < 0
  · have closed : ¬ 0 ≤ fd := by omega
    rw [if_pos failed]
    intro err _
    simp [Prog.bind,Settled,Balanced,monitor_cons,descriptors,closed,portLeaves,seeksFile]
  · have opened : 0 ≤ fd := by omega
    rw [if_neg failed]
    intro (position : Int)
    dsimp only
    by_cases refused : position = -1
    · rw [if_pos refused]
      intro err _ _
      simp [Prog.bind,Settled,Balanced,monitor_cons,descriptors,release,using_,opened,portLeaves,opensFile,seeksFile,refused]
    · rw [if_neg refused]
      intro written
      simp [Prog.bind,Settled,Balanced,monitor_cons,descriptors,using_,opened,portLeaves,opensFile,seeksFile,refused]

theorem ioDoRead_settled (b : Build) (size initial iobase : Nat) :
    (ioDoRead size (portRead b size initial iobase)).All (Settled portLeaves) := by
  unfold ioDoRead portRead
  split
  · intro data _
    simp [Prog.bind,Settled,Balanced,monitor_cons,descriptors,portLeaves,seeksFile]
  · rw [Prog.bind_assoc]
    exact ioIn_settled _ _ _

theorem portWrite_settled (b : Build) (size value iobase : Nat) :
    (portWrite b size value iobase >>= fun _ => .done 0).All (Settled portLeaves) := by
  unfold portWrite
  split
  · intro _
    simp [Prog.bind,Settled,Balanced,monitor_cons,descriptors,portLeaves,seeksFile]
  · exact ioOut_settled _ _

theorem ioReadX_settled (b : Build) (member : info ∈ ioCmds) (found : argv[1]? = some port) :
    (ioReadX b argv info).All (Settled portLeaves) := by
  unfold ioReadX argAt
  rw [found]
  rcases (ioCmds_sized info member).1 with size | size | size <;> simp only [getCommandSize,size]
  · exact ioDoRead_settled b 1 _ _
  · exact ioDoRead_settled b 2 _ _
  · exact ioDoRead_settled b 4 _ _

theorem ioWriteX_settled (b : Build) (member : info ∈ ioCmds) (found : argv[1]? = some port) (given : argv[2]? = some value) :
    (ioWriteX b argv info).All (Settled portLeaves) := by
  unfold ioWriteX argAt
  rw [found,given]
  rcases (ioCmds_sized info member).1 with size | size | size <;> simp only [getCommandSize,size]
  · exact portWrite_settled b 1 _ _
  · exact portWrite_settled b 2 _ _
  · exact portWrite_settled b 4 _ _

theorem openI2cSlave_attaches (bus address : UInt8) :
    (openI2cSlave bus address).All (fun trace outcome => ∀ fd, outcome = .ok fd → trace.any attaches = decide (0 ≤ fd)) := by
  simp only [openI2cSlave,Prog.call_bind,Prog.done_bind]
  intro (fd : Int)
  dsimp only
  by_cases failed : fd < 0
  · rw [if_pos failed]
    intro err _
    simp [Prog.bind,attaches]
  · rw [if_neg failed]
    have opened : 0 ≤ fd := by omega
    intro (result : Int)
    dsimp only
    by_cases refused : result < 0
    · have below : ¬ 0 ≤ result := by omega
      rw [if_pos refused]
      intro err _ _
      simp [attaches,below]
    · have attached : 0 ≤ result := by omega
      rw [if_neg refused]
      simp [attaches,attached,opened]

def Attached (trace : Trace Sys) (outcome : Except Fault (Option SmbusOpParams)) : Prop :=
  ∀ found, outcome = .ok found → trace.any attaches = found.isSome

theorem attached_then {program : Action α} {next : α → Action (Option SmbusOpParams)} (outside : Apart program)
    (rest : ∀ value, (next value).All Attached) : (program >>= next).All Attached := by
  apply Prog.All.bind outside.all
  · intro trace reason _ found returned
    cases returned
  · rintro trace value ⟨all,_⟩
    apply (rest value).mono
    intro later outcome attached found returned
    rw [apart_any all (fun e none_ => (apart_unnoticed none_ 0).2.2.2.1)]
    exact attached found returned

theorem smbusPrologue_attached (b : Build) (argv : List Arg) (stale : SmbusOpParams) (op : SmbusOp) :
    (smbusPrologue b argv stale op).All Attached := by
  apply smbusPrologue_rule (fun program => program.All Attached)
  · intro α program next outside rest
    exact attached_then outside rest
  · intro message _ found returned
    cases returned
    rfl
  · intro bus address reg
    apply Prog.All.bind (openI2cSlave_attaches bus address)
    · intro trace reason _ found returned
      cases returned
    · intro trace fd attached
      have flag := attached fd rfl
      split
      · rename_i negative
        intro _ found returned
        cases returned
        have below : ¬ 0 ≤ fd := by omega
        simp [flag,below,attaches]
      · rename_i valid
        intro found returned
        cases returned
        have above : 0 ≤ fd := by omega
        simp [flag,above]

theorem operandAt_isSome (found : argv[index]? = some arg) (params : SmbusOpParams) (size : SmbusSize) :
    (operandAt b argv index .zero size).isSome = true ↔ ∃ stored, parseIoWidth b arg.text params size = .ok stored := by
  rw [operandAt,found,Option.bind_some,parseIoWidth_frame b arg.text params]
  cases parseIoWidth b arg.text .zero size with
  | ok stored => simp [Except.toOption,Except.map]
  | error stop => simp [Except.toOption,Except.map]

def slaveLeaves (b : Build) (argv : List Arg) (trace : Trace Sys) : Prop :=
  trace.any attaches = true ∧ CountRefused b argv

theorem settled_attached {program : Action Int} (followed : monitor descriptors before [] = some held)
    (attached : before.any attaches = true)
    (rest : Hands program held (fun _ after => after = [] ↔ ¬ CountRefused b argv)) :
    program.All (fun later outcome => Settled (slaveLeaves b argv) (before ++ later) outcome) := by
  apply Prog.All.mono rest
  intro later outcome ends ret returned
  obtain ⟨after,then_,exact_⟩ := ends ret returned
  have whole : monitor descriptors (before ++ later) [] = some after := by
    rw [monitor_append,followed]
    exact then_
  have leaves : slaveLeaves b argv (before ++ later) ↔ CountRefused b argv := by
    simp [slaveLeaves,attached]
  exact settled_of whole (by rw [leaves]; exact exact_) ret returned

theorem operand_hands (b : Build) (params : SmbusOpParams) (operand : argv[3]? = some third) (sized : size = .writeRead)
    {next : Option SmbusOpParams → Action Int} (refuses : Clean (next none) [.file params.fd])
    (goes : ∀ stored, stored.fd = params.fd → (operandAt b argv 3 .zero .writeRead).isSome = true →
      Hands (next (some stored)) [.file params.fd] (fun _ after => after = [] ↔ ¬ CountRefused b argv)) :
    Hands (report (parseIoWidth b third.text params size) >>= next) [.file params.fd]
      (fun _ after => after = [] ↔ ¬ CountRefused b argv) := by
  have accepted := operandAt_isSome (b := b) operand params size
  cases parsed : parseIoWidth b third.text params size with
  | ok stored => exact goes stored (parseIoWidth_fd parsed) (by rw [← sized]; exact accepted.mpr ⟨stored,parsed⟩)
  | error stop =>
    cases stop with
    | fault reason => exact Prog.tracks_fault reason _
    | complain message =>
      have fine : ¬ CountRefused b argv := by
        rw [CountRefused,← sized,accepted,parsed]
        simp
      apply hands_apart (fun _ => apart_stderr _ _)
      intro _
      apply refuses.mono
      rintro _ _ after rfl
      simp [fine]

theorem count_hands (b : Build) (fd : Int) (given : (operandAt b argv 3 .zero .writeRead).isSome = true)
    (counted : argv[4]? = some fourth) {next : Option UInt8 → Action Int}
    (refuses : Hands (next none) [.file fd] (fun _ after => after = [.file fd]))
    (big : ∀ count, blockMax < count.toNat → Hands (next (some count)) [.file fd] (fun _ after => after = [.file fd]))
    (small : ∀ count, ¬ blockMax < count.toNat → Clean (next (some count)) [.file fd]) :
    Hands (report (parseUint8 b fourth.text) >>= next) [.file fd] (fun _ after => after = [] ↔ ¬ CountRefused b argv) := by
  cases count : parseUint8 b fourth.text with
  | error stop =>
    cases stop with
    | fault reason => exact Prog.tracks_fault reason _
    | complain message =>
      have refused : CountRefused b argv := ⟨given,by simp [byteAt,counted,count,Except.toOption]⟩
      apply hands_apart (fun _ => apart_stderr _ _)
      intro _
      apply refuses.mono
      rintro _ _ after rfl
      simp [refused]
  | ok readCount =>
    have byte := byteAt_of counted count
    by_cases above : blockMax < readCount.toNat
    · have refused : CountRefused b argv := ⟨given,by simp [byte,above]⟩
      apply (big readCount above).mono
      rintro _ _ after rfl
      simp [refused]
    · have fine : ¬ CountRefused b argv := fun refused => above (refused.2 readCount byte)
      apply (small readCount above).mono
      rintro _ _ after rfl
      simp [fine]

theorem smbusWriteread_settled (b : Build) (name : argv[0]? = some zeroth) (operand : argv[3]? = some third)
    (counted : argv[4]? = some fourth) (held : info.privdata = .smbusOp op) (size : op.size = .writeRead) :
    (smbusWriteread b argv info).All (Settled (slaveLeaves b argv)) := by
  have carried : smbusOpOf info = .done op := by
    unfold smbusOpOf
    rw [held]
    rfl
  unfold smbusWriteread
  rw [carried,Prog.done_bind]
  apply Prog.All.bind ((smbusPrologue_hands b argv .zero op).and (smbusPrologue_attached b argv .zero op))
  · intro trace reason _ ret returned
    cases returned
  · rintro before found ⟨hands,attached⟩
    obtain ⟨_,followed,rfl⟩ := hands found rfl
    have flag := attached found rfl
    cases found with
    | none =>
      rw [Prog.pure_eq,Prog.all_done,List.append_nil]
      exact settled_of followed (by simp [slaveLeaves,owned,flag])
    | some params =>
      have opened : monitor descriptors before [] = some [.file params.fd] := followed
      apply settled_attached opened flag
      simp only [argAt_found name,argAt_found operand,argAt_found counted,Prog.done_bind]
      refine operand_hands b params operand size ?_ ?_
      · apply hands_apart (fun _ => apart_stderr _ _)
        intro _
        exact hands_close (hands_done rfl)
      · intro stored same given
        refine count_hands b params.fd given counted ?_ ?_ ?_
        · exact hands_apart (fun _ => apart_stderr _ _) (fun _ => hands_done rfl)
        · intro count big
          dsimp only
          rw [if_pos big]
          exact hands_apart (fun _ => apart_stderr _ _) (fun _ => hands_done rfl)
        · intro count small
          dsimp only
          rw [if_neg small,← same]
          exact performOp_close_clean b {stored with readCount := count} op

def holderCmds : List CmdInfo :=
  smbusCmds ++ pciCmds ++ ioCmds ++ msrCmds ++ cmosCmds ++ scomCmds ++ mmioCmds ++ cacheableMmioCmds

-- Entries that close what they open on all their ways out.
def tidyEntries : List Entry :=
  [.smbusRead,.smbusWrite,.smbusProcessCall,.rdMsr,.wrMsr,.cmosRd,.cmosWr,.rdScom,.wrScom,.cpuToChipid,.cpuToEx,
   .mmioReadX,.mmioWriteX]

theorem holderCmds_cases : ∀ info ∈ holderCmds,
    info.entry ∈ tidyEntries ∨ (info.entry = .mmioDump ∧ info.privdata = .mmapFileFlags info.sync) ∨
    (info.entry = .pciReadX ∧ info ∈ pciCmds) ∨ (info.entry = .pciWriteX ∧ info ∈ pciCmds) ∨ info.entry = .pciList ∨
    (info.entry = .ioReadX ∧ info ∈ ioCmds) ∨ (info.entry = .ioWriteX ∧ info ∈ ioCmds) ∨
    (info.entry = .smbusWriteread ∧ info.params = some smbusWritereadParams ∧ info.privdata = .smbusOp info.smbusOp ∧
      info.smbusOp.size = .writeRead) := by
  decide

theorem tidy_clean {info : CmdInfo} (tidy : info.entry ∈ tidyEntries) (b : Build) (fuel : Nat) (argv : List Arg) :
    Clean (info.entry.call b fuel argv info) [] := by
  revert tidy
  cases info.entry with
  | smbusRead => exact fun _ => smbusRead_clean b argv info
  | smbusWrite => exact fun _ => smbusWrite_clean b argv info
  | smbusProcessCall => exact fun _ => smbusProcessCall_clean b argv info
  | rdMsr => exact fun _ => rdMsr_clean b argv info
  | wrMsr => exact fun _ => wrMsr_clean b argv info
  | cmosRd => exact fun _ => cmosRd_clean b argv info
  | cmosWr => exact fun _ => cmosWr_clean b argv info
  | rdScom => exact fun _ => rdScom_clean b argv info
  | wrScom => exact fun _ => wrScom_clean b argv info
  | cpuToChipid => exact fun _ => cpuToChipid_clean b argv info
  | cpuToEx => exact fun _ => cpuToEx_clean b argv info
  | mmioReadX => exact fun _ => mmioReadX_clean b argv info
  | mmioWriteX => exact fun _ => mmioWriteX_clean b argv info
  | _ =>
    intro tidy
    simp [tidyEntries] at tidy

theorem leavesOpen_tidy {info : CmdInfo} (tidy : info.entry ∈ tidyEntries) : ¬ LeavesOpen b argv info trace := by
  unfold LeavesOpen
  revert tidy
  cases info.entry <;> simp [tidyEntries]

theorem leavesOpen_nil (b : Build) (argv : List Arg) (info : CmdInfo) : ¬ LeavesOpen b argv info [] := by
  unfold LeavesOpen
  cases info.entry <;> simp

theorem leavesOpen_pci {info : CmdInfo} (entry : info.entry = .pciReadX ∨ info.entry = .pciWriteX) :
    LeavesOpen b argv info = pciLeaves info.bytes := by
  funext trace
  cases entry with
  | inl entry => simp only [LeavesOpen,entry,pciLeaves]
  | inr entry => simp only [LeavesOpen,entry,pciLeaves]

theorem leavesOpen_port {info : CmdInfo} (entry : info.entry = .ioReadX ∨ info.entry = .ioWriteX) :
    LeavesOpen b argv info = portLeaves := by
  funext trace
  cases entry with
  | inl entry => simp only [LeavesOpen,entry,portLeaves]
  | inr entry => simp only [LeavesOpen,entry,portLeaves]

theorem entry_settled (b : Build) (fuel : Nat) (member : info ∈ holderCmds) (admitted : Admits info.params argv) :
    (info.entry.call b fuel argv info).All (Settled (LeavesOpen b argv info)) := by
  rcases holderCmds_cases info member with
    tidy | ⟨entry,flags⟩ | ⟨entry,pci⟩ | ⟨entry,pci⟩ | entry | ⟨entry,io⟩ | ⟨entry,io⟩ | ⟨entry,params,held,size⟩
  · exact (tidy_clean tidy b fuel argv).settled (fun _ => leavesOpen_tidy tidy)
  · rw [entry]
    apply Clean.settled (mmioDump_clean b argv flags)
    simp [LeavesOpen,entry]
  · obtain ⟨params,_,widths⟩ := pciCmds_sized info pci
    rw [params entry] at admitted
    obtain ⟨address,located⟩ := pciRead_located b admitted
    rw [leavesOpen_pci (.inl entry),entry]
    exact pciReadX_settled b (widths (.inl entry)) located
  · obtain ⟨_,params,widths⟩ := pciCmds_sized info pci
    rw [params entry] at admitted
    obtain ⟨address,data,located,given⟩ := pciWrite_located b admitted
    rw [leavesOpen_pci (.inr entry),entry]
    exact pciWriteX_settled b (widths (.inr entry)) located given
  · have leaves : LeavesOpen b argv info = procfsLeaves := by
      funext trace
      simp only [LeavesOpen,entry,procfsLeaves]
    rw [leaves,entry]
    exact pciList_settled argv info
  · have count : 2 ≤ argv.length := (admitted ioRdParams (by simp [(ioCmds_sized info io).2.1 entry])).1
    rw [leavesOpen_port (.inl entry),entry]
    exact ioReadX_settled b io (List.getElem?_eq_getElem (by omega))
  · have count : 3 ≤ argv.length := (admitted ioWrParams (by simp [(ioCmds_sized info io).2.2 entry])).1
    rw [leavesOpen_port (.inr entry),entry]
    exact ioWriteX_settled b io (List.getElem?_eq_getElem (by omega)) (List.getElem?_eq_getElem (by omega))
  · have leaves : LeavesOpen b argv info = slaveLeaves b argv := by
      funext trace
      simp only [LeavesOpen,entry,slaveLeaves]
    have count : 5 ≤ argv.length := (admitted smbusWritereadParams (by simp [params])).1
    rw [leaves,entry]
    exact smbusWriteread_settled b (List.getElem?_eq_getElem (by omega)) (List.getElem?_eq_getElem (by omega))
      (List.getElem?_eq_getElem (by omega)) held size

theorem runInfo_settled (b : Build) (fuel : Nat) (member : info ∈ holderCmds) (admitted : Admits info.params argv) :
    (runInfo b fuel argv info).All (Settled (LeavesOpen b argv info)) := by
  apply Prog.All.bind (apart_checkPrereqs b argv info.params).all
  · intro trace reason _ ret returned
    cases returned
  · rintro before ret ⟨all,_⟩
    split
    · rw [Prog.pure_eq,Prog.all_done]
      have closed := leavesOpen_nil b argv info
      exact settled_prepend all (settled_of rfl (by simp [closed]))
    · apply (entry_settled b fuel member admitted).mono
      intro trace outcome settled
      exact settled_prepend all settled

-- Every run that returns: nothing was used after its close, and all that was
-- opened has been closed once, except exactly where LeavesOpen says.
theorem descriptors_balanced_iff (b : Build) (fuel : Nat) (info : CmdInfo) (member : info ∈ holderCmds) (argv : List Arg)
    (admitted : Admits info.params argv) (kernel : Kernel Sys σ) (s : σ) (ret : Int)
    (returned : ((runInfo b fuel argv info).exec kernel s).outcome = .ok ret) :
    (monitor descriptors ((runInfo b fuel argv info).exec kernel s).trace []).isSome = true ∧
    (Balanced ((runInfo b fuel argv info).exec kernel s).trace ↔
      ¬ LeavesOpen b argv info ((runInfo b fuel argv info).exec kernel s).trace) :=
  (runInfo_settled b fuel member admitted).exec kernel s ret returned

theorem descriptors_leak :
    let argv := ["smbus_writeread","0","0x50","01","33"].map Arg.of
    let run := (runInfo .x86_64 0 argv writereadInfo).exec smooth ()
    writereadInfo ∈ holderCmds ∧ Admits writereadInfo.params argv ∧ run.outcome = .ok (-1) ∧
    monitor descriptors run.trace [] = some [.file 3] ∧ ¬ Balanced run.trace := by
  refine ⟨by decide,by decide,by decide +kernel,by decide +kernel,?_⟩
  unfold Balanced
  decide +kernel

theorem descriptors_balanced_iff_writeread :
    let argv := ["smbus_writeread","0","0x50","01","4"].map Arg.of
    let run := (runInfo .x86_64 0 argv writereadInfo).exec smooth ()
    run.outcome = .ok 0 ∧ Balanced run.trace := by
  have returned : ((runInfo .x86_64 0 (["smbus_writeread","0","0x50","01","4"].map Arg.of) writereadInfo).exec
      smooth ()).outcome = .ok 0 := by decide +kernel
  have settled := descriptors_balanced_iff .x86_64 0 writereadInfo (by decide) (["smbus_writeread","0","0x50","01","4"].map Arg.of)
    (by decide) smooth () 0 returned
  refine ⟨returned,settled.2.mpr ?_⟩
  rintro ⟨_,_,above⟩
  have four : byteAt .x86_64 (["smbus_writeread","0","0x50","01","4"].map Arg.of) 4 = some 4 := by decide
  exact absurd (above 4 four) (by decide)

end Iotools
