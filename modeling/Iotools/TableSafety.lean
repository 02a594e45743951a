import Iotools.RegisterSafety

namespace Iotools
open Numeral Interaction

def CmdInfo.leastArgs (info : CmdInfo) : Nat := (info.params.map PrereqParams.minArgs).getD 1

def CmdInfo.reads (info : CmdInfo) : Nat :=
  match info.entry with
  | .smbusRead => if info.smbusOp.size.hasRegister then 4 else 3
  | .smbusWrite => if info.smbusOp.size = .byte ∨ info.smbusOp.size = .quick then 4 else 5
  | .smbusProcessCall | .smbusWriteread => 5
  | .mmioReadX | .ioReadX | .logicOp | .not | .cmosRd | .cpuToChipid | .cpuToEx => 2
  | .mmioWriteX | .mmioDump | .cpuid | .runon | .ioWriteX | .shift | .rdMsr | .cmosWr | .rdScom => 3
  | .wrMsr | .wrScom => 4
  | .pciReadX => 5
  | .pciWriteX => 6
  | .pciList | .busyLoop | .rdtsc | .cpuList => 1

-- What the entry function finds behind privdata, and the operand sizes its
-- switch has a case for.
def CmdInfo.paired (info : CmdInfo) : Bool :=
  match info.entry,info.privdata with
  | .smbusRead,.smbusOp op | .smbusWrite,.smbusOp op | .smbusProcessCall,.smbusOp op | .smbusWriteread,.smbusOp op =>
    op.sound
  | .mmioReadX,.mmapFileFlags _ => info.sizedata ∈ [some 8,some 16,some 32,some 64]
  | .mmioWriteX,_ => info.sizedata ∈ [some 8,some 16,some 32,some 64]
  | .mmioDump,.mmapFileFlags _ => true
  | .pciReadX,_ | .pciWriteX,_ | .ioReadX,_ | .ioWriteX,_ => info.sizedata ∈ [some 8,some 16,some 32]
  | .logicOp,.logicInfo op => op.folds
  | .shift,.logicInfo op => !op.folds
  | .smbusRead,_ | .smbusWrite,_ | .smbusProcessCall,_ | .smbusWriteread,_ | .mmioReadX,_ | .mmioDump,_ | .logicOp,_
  | .shift,_ => false
  | _,_ => true

theorem everyCmd_wellFormed : ∀ info ∈ everyCmd, info.paired = true ∧ info.reads ≤ info.leastArgs := by
  decide +kernel

theorem Admits.least {info : CmdInfo} (admitted : Admits info.params argv) (called : 1 ≤ argv.length) :
    info.leastArgs ≤ argv.length := by
  unfold CmdInfo.leastArgs
  cases params : info.params with
  | none => exact called
  | some p => exact (admitted p params).1

-- A well-formed entry is safe with every argument vector that is long enough.
theorem entry_sound (b : Build) (fuel : Nat) (info : CmdInfo) (paired : info.paired = true)
    (long : info.reads ≤ argv.length) : Sound (info.entry.call b fuel argv info) := by
  unfold CmdInfo.paired at paired
  unfold CmdInfo.reads CmdInfo.smbusOp at long
  revert paired long
  cases info.entry with
  | smbusRead =>
    cases held : info.privdata with
    | smbusOp op => exact fun sound long => smbusRead_sound sound held b long
    | null | mmapFileFlags | logicInfo => exact fun never => nomatch never
  | smbusWrite =>
    cases held : info.privdata with
    | smbusOp op => exact fun sound long => smbusWrite_sound sound held b long
    | null | mmapFileFlags | logicInfo => exact fun never => nomatch never
  | smbusProcessCall =>
    cases held : info.privdata with
    | smbusOp op => exact fun sound long => smbusProcessCall_sound sound held b long
    | null | mmapFileFlags | logicInfo => exact fun never => nomatch never
  | smbusWriteread =>
    cases held : info.privdata with
    | smbusOp op => exact fun sound long => smbusWriteread_sound sound held b long
    | null | mmapFileFlags | logicInfo => exact fun never => nomatch never
  | mmioReadX =>
    cases held : info.privdata with
    | mmapFileFlags sync => exact fun sized long => mmioReadX_sound b long held (of_decide_eq_true sized)
    | null | smbusOp | logicInfo => exact fun never => nomatch never
  | mmioDump =>
    cases held : info.privdata with
    | mmapFileFlags sync => exact fun _ long => mmioDump_sound b long held
    | null | smbusOp | logicInfo => exact fun never => nomatch never
  | logicOp =>
    cases held : info.privdata with
    | logicInfo op => exact fun folds long => logicOp_sound held folds long
    | null | smbusOp | mmapFileFlags => exact fun never => nomatch never
  | shift =>
    cases held : info.privdata with
    | logicInfo op => exact fun shifts long => shift_sound b held (by simpa using shifts) long
    | null | smbusOp | mmapFileFlags => exact fun never => nomatch never
  | mmioWriteX => exact fun sized long => mmioWriteX_sound b long (of_decide_eq_true sized)
  | pciReadX => exact fun sized long => pciReadX_sound b long (of_decide_eq_true sized)
  | pciWriteX => exact fun sized long => pciWriteX_sound b long (of_decide_eq_true sized)
  | ioReadX => exact fun sized long => ioReadX_sound b long (of_decide_eq_true sized)
  | ioWriteX => exact fun sized long => ioWriteX_sound b long (of_decide_eq_true sized)
  | pciList => exact fun _ _ => pciList_sound argv info
  | busyLoop => exact fun _ _ => busyLoop_sound b fuel argv info
  | rdtsc => exact fun _ _ => rdtsc_sound argv info
  | cpuList => exact fun _ _ => cpuList_sound b argv info
  | not => exact fun _ long => not_sound info long
  | cpuid => exact fun _ long => cpuid_sound b info long
  | runon => exact fun _ long => runon_sound b info long
  | rdMsr => exact fun _ long => rdMsr_sound b info long
  | wrMsr => exact fun _ long => wrMsr_sound b info long
  | cmosRd => exact fun _ long => cmosRd_sound b info long
  | cmosWr => exact fun _ long => cmosWr_sound b info long
  | rdScom => exact fun _ long => rdScom_sound b info long
  | wrScom => exact fun _ long => wrScom_sound b info long
  | cpuToChipid => exact fun _ long => cpuToChipid_sound b info long
  | cpuToEx => exact fun _ long => cpuToEx_sound b info long

theorem checkPrereqs_admits (b : Build) (argv : List Arg) (params : Option PrereqParams) :
    (checkPrereqs b argv params).All (fun _ outcome => outcome = .ok 0 → Admits params argv) := by
  cases params with
  | none =>
    intro _ p never
    cases never
  | some p =>
    simp only [checkPrereqs]
    split
    case isTrue =>
      unfold argAt
      cases argv[0]? <;> simp
    case isFalse counted =>
      have admits : Admits (some p) argv := by
        rintro _ ⟨⟩
        omega
      split
      · simp only [Prog.call_bind,Prog.done_bind,Prog.all_call]
        intro (level : Int)
        split <;> simp [admits]
      · simp [admits]

-- Every registered command, entered with arguments that check_prereqs admits,
-- reads no argument beyond argc, finds the private data it casts to, and takes
-- no default branch of its switches.
theorem registered_commands_safe (b : Build) (info : CmdInfo) (member : info ∈ registered b) (argv : List Arg)
    (called : 1 ≤ argv.length) (σ : Type) (gate : Kernel Sys σ) (s : σ)
    (admitted : ((checkPrereqs b argv info.params).exec gate s).outcome = .ok 0) (fuel : Nat) (τ : Type)
    (kernel : Kernel Sys τ) (t : τ) :
    let run := (info.entry.call b fuel argv info).exec kernel t
    (∀ index, run.outcome ≠ .error (.argv index)) ∧
    run.outcome ≠ .error .nullPrivdata ∧ run.outcome ≠ .error .wrongPrivdata ∧
    ∀ message reply, ⟨.stderr message,reply⟩ ∈ run.trace → message.isDefaultBranch = false := by
  intro run
  obtain ⟨paired,reads⟩ := everyCmd_wellFormed info (mem_everyCmd member)
  have admits : Admits info.params argv := (checkPrereqs_admits b argv info.params).exec gate s admitted
  have sound := entry_sound b fuel info paired (reads.trans (admits.least called))
  obtain ⟨events,faults⟩ := sound.all.exec kernel t
  refine ⟨fun index ends => faults _ ends,fun ends => faults _ ends,fun ends => faults _ ends,?_⟩
  intro message reply reported
  exact events _ reported message rfl

theorem registered_commands_safe_pci_write :
    let info := makeCmdWithParamsSize "pci_write8" .pciWriteX .null pciWrParams 8
    let argv := ["pci_write8","0","0","0x1f","3","0x40","0xff"].map Arg.of
    info ∈ registered .x86_64 ∧ ((checkPrereqs .x86_64 argv info.params).exec smooth ()).outcome = .ok 0 ∧
      ∀ index, ((info.entry.call .x86_64 0 argv info).exec smooth ()).outcome ≠ .error (.argv index) := by
  refine ⟨by decide +kernel,by decide +kernel,?_⟩
  exact (registered_commands_safe .x86_64 _ (by decide +kernel) _ (by decide +kernel) Unit smooth () (by decide +kernel) 0 Unit
    smooth ()).1

end Iotools
