import Iotools.EntrySafety

namespace Iotools
open Bytes Numeral Interaction

theorem pciAddress_sound (b : Build) (withSegment : Bool) (long : (if withSegment then 6 else 5) ≤ argv.length) :
    Sound (pciAddress b argv withSegment) := by
  have rest (seg first : Nat) (inside : first + 3 < argv.length) : Sound (do
      let bus := toUnsigned (strtolLong b 0 (← argAt argv first)).1
      let dev := (strtoulLong b 0 (← argAt argv (first + 1))).1 % 2 ^ 32
      let func := (strtoulLong b 0 (← argAt argv (first + 2))).1 % 2 ^ 32
      let reg := (strtoulLong b 0 (← argAt argv (first + 3))).1 % 2 ^ 32
      return ⟨seg,bus,dev,func,reg⟩ : Action PciAddress) :=
    (argAt_sound (by omega)).bind (fun _ => (argAt_sound (by omega)).bind (fun _ => (argAt_sound (by omega)).bind
      (fun _ => (argAt_sound inside).bind (by simp))))
  cases withSegment with
  | false => exact rest 0 1 long
  | true =>
    have six : 6 ≤ argv.length := long
    exact (argAt_sound (by omega)).bind (fun text => rest (toUnsigned (strtolLong b 0 text).1) 2 long)

theorem pciDoRead_sound (b : Build) (fd : Int) (size : Nat) (leToHost : Build → Nat → Nat) :
    Sound (pciDoRead b fd size leToHost) := by
  simp only [pciDoRead,Prog.call_bind,Prog.done_bind]
  refine call_sound (by simp) (fun bytes => ?_)
  cases bytes with
  | none => exact (complain_return (fun _ => rfl) _).sound
  | some bytes =>
    dsimp only
    split
    · exact (complain_return (fun _ => rfl) _).sound
    · simp

theorem pciDoWrite_sound (b : Build) (fd : Int) (size : Nat) (hostToLe : Build → Nat → Nat) (ldata : Nat) :
    Sound (pciDoWrite b fd size hostToLe ldata) := by
  simp only [pciDoWrite,Prog.call_bind,Prog.done_bind]
  refine call_sound (by simp) (fun (written : Int) => ?_)
  split
  · exact (complain_return (fun _ => rfl) _).sound
  · simp

theorem pciSeek_sound (address : PciAddress) (mode : AccessMode) {transfer : Int → Action Int}
    (sound : ∀ fd, Sound (transfer fd)) :
    Sound (do
      let fd ← openDevice address.seg address.bus address.dev address.func mode
      if fd < 0 then return -1
      else do
        if (← ask (.lseek fd address.reg)) < 0 then do
          complain (.lseek address.reg)
          return -1
        else transfer fd : Action Int) := by
  refine (openDevice_setsUp _ _ _ _ _).sound.bind (fun fd => ?_)
  split
  · trivial
  · simp only [Prog.call_bind,Prog.done_bind]
    refine call_sound (by simp) (fun (position : Int) => ?_)
    split
    · exact (complain_return (fun _ => rfl) _).sound
    · exact sound fd

theorem pciReadX_sound (b : Build) (long : 5 ≤ argv.length) (sized : info.sizedata ∈ [some 8,some 16,some 32]) :
    Sound (pciReadX b argv info) := by
  have enough : (if decide (5 < argv.length) then 6 else 5) ≤ argv.length := by
    split <;> simp_all
    omega
  refine (pciAddress_sound b _ enough).bind (fun address => pciSeek_sound address .rdonly (fun fd => ?_))
  simp only [List.mem_cons,List.not_mem_nil,or_false] at sized
  rcases sized with size | size | size <;> simp only [getCommandSize,size]
  · exact pciDoRead_sound b fd 1 _
  · exact pciDoRead_sound b fd 2 _
  · exact pciDoRead_sound b fd 4 _

theorem pciWriteX_sound (b : Build) (long : 6 ≤ argv.length) (sized : info.sizedata ∈ [some 8,some 16,some 32]) :
    Sound (pciWriteX b argv info) := by
  have enough : (if decide (6 < argv.length) then 6 else 5) ≤ argv.length := by
    split <;> omega
  have operand : (if 6 < argv.length then 6 else 5) < argv.length := by
    split <;> omega
  refine (pciAddress_sound b _ enough).bind (fun address => (argAt_sound operand).bind (fun value => ?_))
  refine pciSeek_sound address .wronly (fun fd => ?_)
  simp only [List.mem_cons,List.not_mem_nil,or_false] at sized
  rcases sized with size | size | size <;> simp only [getCommandSize,size]
  · exact pciDoWrite_sound b fd 1 _ _
  · exact pciDoWrite_sound b fd 2 _ _
  · exact pciDoWrite_sound b fd 4 _ _

theorem listSysfsEntries_sound (entries : List Dirent) : Sound (listSysfsEntries entries) := by
  induction entries with
  | nil => trivial
  | cons de rest ih =>
    simp only [listSysfsEntries]
    cases scanSysfsName de.name with
    | none => exact ih
    | some found => exact call_sound (by simp) (fun _ => ih)

theorem listProcfsBus_sound (bus : Int) (entries : List Dirent) : Sound (listProcfsBus bus entries) := by
  induction entries with
  | nil => trivial
  | cons de rest ih =>
    simp only [listProcfsBus]
    cases scanProcfsName de.name with
    | none => exact ih
    | some found => exact call_sound (by simp) (fun _ => ih)

theorem listProcfsEntries_sound (entries : List Dirent) : Sound (listProcfsEntries entries) := by
  induction entries with
  | nil => trivial
  | cons de rest ih =>
    simp only [listProcfsEntries]
    split
    · refine call_sound (by simp) (fun opened => ?_)
      cases opened with
      | none => exact (complain_return (fun _ => rfl) _).sound
      | some entries => exact (listProcfsBus_sound _ entries).bind (fun _ => ih)
    · exact ih

theorem pciList_sound (argv : List Arg) (info : CmdInfo) : Sound (pciList argv info) := by
  have sysfs : Sound pciListSysfs := by
    refine call_sound (by simp) (fun opened => ?_)
    cases opened with
    | none => exact (complain_return (fun _ => rfl) _).sound
    | some entries => exact (listSysfsEntries_sound entries).bind (by simp)
  have procfs : Sound pciListProcfs := by
    refine call_sound (by simp) (fun opened => ?_)
    cases opened with
    | none => exact (complain_return (fun _ => rfl) _).sound
    | some entries => exact listProcfsEntries_sound entries
  refine sysfs.bind (fun ret => ?_)
  split
  · exact procfs
  · trivial

theorem ioIn_sound (iobase : Int) (data : List UInt8) : Sound (ioIn iobase data) := by
  simp only [ioIn,Prog.call_bind,Prog.done_bind]
  refine call_sound (by simp) (fun (fd : Int) => ?_)
  split
  · exact (complain_return (fun _ => rfl) _).sound
  · refine call_sound (by simp) (fun (position : Int) => ?_)
    split
    · exact (complain_close (fun _ => rfl) _ _).sound
    · refine call_sound (by simp) (fun bytes => ?_)
      cases bytes <;> trivial

theorem ioOut_sound (iobase : Int) (data : List UInt8) : Sound (ioOut iobase data) := by
  simp only [ioOut,Prog.call_bind,Prog.done_bind]
  refine call_sound (by simp) (fun (fd : Int) => ?_)
  split
  · exact complain_sound (fun _ => rfl)
  · refine call_sound (by simp) (fun (position : Int) => ?_)
    split
    · exact (complain_sound (fun _ => rfl)).bind (by simp)
    · exact call_sound (by simp) (fun _ => trivial)

theorem portRead_sound (b : Build) (size initial iobase : Nat) : Sound (portRead b size initial iobase) := by
  unfold portRead
  split
  · exact call_sound (by simp) (fun _ => trivial)
  · exact (ioIn_sound _ _).bind (fun _ => trivial)

theorem portWrite_sound (b : Build) (size value iobase : Nat) : Sound (portWrite b size value iobase) := by
  unfold portWrite
  split
  · exact call_sound (by simp) (fun _ => trivial)
  · exact ioOut_sound _ _

theorem ioReadX_sound (b : Build) (long : 2 ≤ argv.length) (sized : info.sizedata ∈ [some 8,some 16,some 32]) :
    Sound (ioReadX b argv info) := by
  have printed (size initial iobase : Nat) : Sound (ioDoRead size (portRead b size initial iobase)) :=
    (portRead_sound b size initial iobase).bind (by simp)
  refine (argAt_sound (by omega)).bind (fun base => ?_)
  simp only [List.mem_cons,List.not_mem_nil,or_false] at sized
  rcases sized with size | size | size <;> simp only [getCommandSize,size]
  · exact printed 1 0xff _
  · exact printed 2 0xffff _
  · exact printed 4 0xffff _

theorem ioWriteX_sound (b : Build) (long : 3 ≤ argv.length) (sized : info.sizedata ∈ [some 8,some 16,some 32]) :
    Sound (ioWriteX b argv info) := by
  refine (argAt_sound (by omega)).bind (fun base => (argAt_sound (by omega)).bind (fun value => ?_))
  simp only [List.mem_cons,List.not_mem_nil,or_false] at sized
  rcases sized with size | size | size <;> simp only [getCommandSize,size]
  · exact (portWrite_sound b 1 _ _).bind (fun _ => trivial)
  · exact (portWrite_sound b 2 _ _).bind (fun _ => trivial)
  · exact (portWrite_sound b 4 _ _).bind (fun _ => trivial)

theorem printHex_sound (value : Nat) {next : Unit → Action Int} (rest : Sound (next ())) :
    Sound (printHex value >>= next) := call_sound (by simp) (fun _ => rest)

def LogicOp.folds (op : LogicOp) : Bool := op ≠ .shl && op ≠ .shr

theorem logicStep_folds (folds : op.folds = true) (result val : Nat) : ∃ next, logicStep op result val = some next := by
  cases op with
  | or | and | xor | bts | btr => exact ⟨_,rfl⟩
  | shl | shr => cases folds

-- The position moves with the count, so the two always add up to argc.
theorem logicLoop_sound (held : info.privdata = .logicInfo op) (folds : op.folds = true) (argc position result : Nat)
    (rc : Int) (left : position + argc ≤ argv.length) : Sound (logicLoop argv info argc position result rc) := by
  induction argc generalizing position result rc with
  | zero => exact printHex_sound result trivial
  | succ argc ih =>
    refine (argAt_sound (by omega)).bind (fun text => ?_)
    obtain ⟨next,stepped⟩ := logicStep_folds folds result (strtoull 0 text).1
    simp only [logicInfoOf,held,Prog.pure_eq,Prog.done_bind,stepped]
    exact ih (position + 1) next.1 next.2 (by omega)

theorem logicOp_sound (held : info.privdata = .logicInfo op) (folds : op.folds = true) (long : 2 ≤ argv.length) :
    Sound (logicOp argv info) :=
  (argAt_sound (by omega)).bind (fun _ => logicLoop_sound held folds _ _ _ _ (by omega))

theorem not_sound (info : CmdInfo) (long : 2 ≤ argv.length) : Sound (Iotools.not argv info) :=
  (argAt_sound (by omega)).bind (fun _ => printHex_sound _ trivial)

theorem shift_sound (b : Build) (held : info.privdata = .logicInfo op) (shifts : op.folds = false)
    (long : 3 ≤ argv.length) : Sound (shift b argv info) := by
  refine (argAt_sound (by omega)).bind (fun value => (argAt_sound (by omega)).bind (fun count => ?_))
  simp only [logicInfoOf,held,Prog.pure_eq,Prog.done_bind]
  cases op with
  | shl | shr => exact printHex_sound _ trivial
  | or | and | xor | bts | btr => cases shifts

theorem setCpuAffinity_sound (b : Build) (cpu : Int) : Sound (setCpuAffinity b cpu) := by
  have sets (set : CpuSet) : Sound (cpuSet b cpu set) := by
    simp only [cpuSet]
    split <;> split <;> trivial
  simp only [setCpuAffinity,Prog.call_bind,Prog.done_bind]
  refine call_sound (by simp) (fun stale => (sets _).bind (fun set => ?_))
  refine call_sound (by simp) (fun (result : Int) => ?_)
  split
  · exact (complain_return (fun _ => rfl) _).sound
  · trivial

theorem busyRounds_sound (reps : Int) (fuel count : Nat) (printed : Int) (t0 : Int × Int) :
    Sound (busyRounds reps fuel count printed t0) := by
  induction fuel generalizing count printed t0 with
  | zero => trivial
  | succ fuel ih =>
    simp only [busyRounds,Prog.call_bind,Prog.done_bind]
    split
    · trivial
    · split
      · refine call_sound (by simp) (fun t1 => ?_)
        split
        · exact call_sound (by simp) (fun _ => call_sound (by simp) (fun t0 => ih _ _ _))
        · exact ih _ _ _
      · exact ih _ _ _

theorem busyLoop_sound (b : Build) (fuel : Nat) (argv : List Arg) (info : CmdInfo) : Sound (busyLoop b fuel argv info) := by
  have rounds (reps : Int) : Sound (do
      let t0 ← ask .gettimeofday
      busyRounds reps fuel 0 0 t0 : Action Int) :=
    call_sound (by simp) (fun t0 => busyRounds_sound reps fuel 0 0 t0)
  simp only [busyLoop]
  split
  · exact (argAt_sound (by omega)).bind (fun _ => rounds _)
  · exact rounds (-1)

theorem rdtsc_sound (argv : List Arg) (info : CmdInfo) : Sound (rdtsc argv info) := by
  simp [rdtsc]

theorem cpuid_sound (b : Build) (info : CmdInfo) (long : 3 ≤ argv.length) : Sound (cpuid b argv info) := by
  have inline_ (cpu : Int) (function index : Nat) : Sound (cpuidInline b cpu function index) := by
    refine (setCpuAffinity_sound b cpu).bind (fun result => ?_)
    split
    · trivial
    · exact call_sound (by simp) (fun _ => trivial)
  refine (argAt_sound (by omega)).bind (fun cpu => (argAt_sound (by omega)).bind (fun function => ?_))
  dsimp only
  split
  · refine (argAt_sound (by omega)).bind (fun index => (inline_ _ _ _).bind (fun data => ?_))
    cases data <;> simp [Message.isDefaultBranch]
  · refine (inline_ _ _ 0).bind (fun data => ?_)
    cases data <;> simp [Message.isDefaultBranch]

theorem listCpus_sound (first left : Nat) : Sound (listCpus first left) := by
  induction left generalizing first with
  | zero => trivial
  | succ left ih => exact call_sound (by simp) (fun _ => ih (first + 1))

theorem cpuList_sound (b : Build) (argv : List Arg) (info : CmdInfo) : Sound (cpuList b argv info) := by
  unfold cpuList
  split
  · exact call_sound (by simp) (fun _ => (listCpus_sound 0 _).bind (fun _ => trivial))
  · simp [Message.isDefaultBranch]

theorem runon_sound (b : Build) (info : CmdInfo) (long : 3 ≤ argv.length) : Sound (runon b argv info) := by
  refine (argAt_sound (by simp; omega)).bind (fun cpu => (setCpuAffinity_sound b _).bind (fun result => ?_))
  split
  · trivial
  · refine (argAt_sound (by simp; omega)).bind (fun _ => call_sound (by simp) (fun _ => ?_))
    exact (complain_return (fun _ => rfl) _).sound

theorem readQuad_sound (b : Build) (fd : Int) : Sound (readQuad b fd) := by
  simp only [readQuad,Prog.call_bind,Prog.done_bind]
  refine call_sound (by simp) (fun bytes => ?_)
  cases bytes with
  | none => exact (complain_close (fun _ => rfl) _ _).sound
  | some bytes =>
    dsimp only
    split
    · exact (complain_close (fun _ => rfl) _ _).sound
    · simp

theorem writeQuad_sound (b : Build) (fd : Int) (data : Nat) : Sound (writeQuad b fd data) := by
  simp only [writeQuad,Prog.call_bind,Prog.done_bind]
  refine call_sound (by simp) (fun (written : Int) => ?_)
  split
  · exact (complain_sound (fun _ => rfl)).bind (by simp)
  · simp

theorem rdMsr_sound (b : Build) (info : CmdInfo) (long : 3 ≤ argv.length) : Sound (rdMsr b argv info) := by
  refine (argAt_sound (by omega)).bind (fun cpu => (argAt_sound (by omega)).bind (fun msr => ?_))
  refine (msrOpenAndSeek_setsUp _ _ _).sound.bind (fun opened => ?_)
  cases opened with
  | none => trivial
  | some fd => exact readQuad_sound b fd

theorem wrMsr_sound (b : Build) (info : CmdInfo) (long : 4 ≤ argv.length) : Sound (wrMsr b argv info) := by
  refine (argAt_sound (by omega)).bind (fun cpu => (argAt_sound (by omega)).bind (fun msr => ?_))
  refine (argAt_sound (by omega)).bind (fun data => (msrOpenAndSeek_setsUp _ _ _).sound.bind (fun opened => ?_))
  cases opened with
  | none => trivial
  | some fd => exact writeQuad_sound b fd _

theorem cmosRd_sound (b : Build) (info : CmdInfo) (long : 2 ≤ argv.length) : Sound (cmosRd b argv info) := by
  refine (argAt_sound (by omega)).bind (fun index => ?_)
  dsimp only
  split
  · simp [Message.isDefaultBranch]
  · refine (cmosOpenAndSeek_setsUp b _ _).sound.bind (fun opened => ?_)
    cases opened with
    | none => trivial
    | some fd =>
      simp only [Prog.call_bind,Prog.done_bind]
      refine call_sound (by simp) (fun bytes => ?_)
      cases bytes with
      | none => exact (complain_close (fun _ => rfl) _ _).sound
      | some bytes =>
        dsimp only
        split
        · exact (complain_close (fun _ => rfl) _ _).sound
        · simp

theorem cmosWr_sound (b : Build) (info : CmdInfo) (long : 3 ≤ argv.length) : Sound (cmosWr b argv info) := by
  refine (argAt_sound (by omega)).bind (fun index => ?_)
  dsimp only
  split
  · simp [Message.isDefaultBranch]
  · refine (argAt_sound (by omega)).bind (fun data => (cmosOpenAndSeek_setsUp b _ _).sound.bind (fun opened => ?_))
    cases opened with
    | none => trivial
    | some fd =>
      simp only [Prog.call_bind,Prog.done_bind]
      refine call_sound (by simp) (fun (written : Int) => ?_)
      split
      · exact (complain_close (fun _ => rfl) _ _).sound
      · simp

theorem rdScom_sound (b : Build) (info : CmdInfo) (long : 3 ≤ argv.length) : Sound (rdScom b argv info) := by
  refine (argAt_sound (by omega)).bind (fun chip => (argAt_sound (by omega)).bind (fun scom => ?_))
  refine (scomOpenAndSeek_setsUp _ _ _).sound.bind (fun opened => ?_)
  cases opened with
  | none => trivial
  | some fd => exact readQuad_sound b fd

theorem wrScom_sound (b : Build) (info : CmdInfo) (long : 4 ≤ argv.length) : Sound (wrScom b argv info) := by
  refine (argAt_sound (by omega)).bind (fun chip => (argAt_sound (by omega)).bind (fun scom => ?_))
  refine (argAt_sound (by omega)).bind (fun data => (scomOpenAndSeek_setsUp _ _ _).sound.bind (fun opened => ?_))
  cases opened with
  | none => trivial
  | some fd => exact writeQuad_sound b fd _

theorem cpuToPir_sound (b : Build) (cpu : Int) : Sound (cpuToPir b cpu) := by
  have parses (buffer : Buffer 64) : Parses (parsePir b buffer) := by
    simp only [parsePir]
    split
    · exact parses_error trivial
    · exact parses_ok _
  simp only [cpuToPir,Prog.call_bind,Prog.done_bind]
  refine call_sound (by simp) (fun pirStr => call_sound (by simp) (fun (fd : Int) => ?_))
  split
  · exact (complain_return (fun _ => rfl) _).sound
  · refine call_sound (by simp) (fun bytes => ?_)
    cases bytes with
    | none => exact (complain_close (fun _ => rfl) _ _).sound
    | some bytes => exact call_sound (by simp) (fun _ => report_sound (parses _))

theorem pirToChipid_sound (pir : Nat) (chipid : Buffer 4) : Sound (pirToChipid pir chipid) := by
  simp only [pirToChipid,Prog.call_bind,Prog.done_bind]
  refine call_sound (by simp) (fun found => ?_)
  cases found with
  | error code => simp [Message.isDefaultBranch]
  | ok path =>
    refine call_sound (by simp) (fun (fd : Int) => ?_)
    split
    · exact (complain_return (fun _ => rfl) _).sound
    · refine call_sound (by simp) (fun bytes => ?_)
      cases bytes with
      | none => exact (complain_close (fun _ => rfl) _ _).sound
      | some bytes => simp

theorem cpuToChipid_sound (b : Build) (info : CmdInfo) (long : 2 ≤ argv.length) : Sound (cpuToChipid b argv info) := by
  refine call_sound (by simp) (fun stale => (argAt_sound (by omega)).bind (fun cpu => ?_))
  refine (cpuToPir_sound b _).bind (fun found => ?_)
  cases found with
  | none => trivial
  | some pir =>
    refine (pirToChipid_sound pir stale).bind (fun chip => ?_)
    cases chip <;> simp

theorem cpuToEx_sound (b : Build) (info : CmdInfo) (long : 2 ≤ argv.length) : Sound (cpuToEx b argv info) := by
  refine (argAt_sound (by omega)).bind (fun cpu => (cpuToPir_sound b _).bind (fun found => ?_))
  cases found <;> simp

end Iotools
