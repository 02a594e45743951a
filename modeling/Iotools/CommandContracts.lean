import Iotools.RegisterContracts

namespace Iotools
open Bytes Numeral Interaction

section Processors
variable {b : Build} {entry : Entry} {rely : Event Sys → Prop} {fine : Fault → Prop} {s : Ledger}

-- What set_cpu_affinity answers with: the process is pinned, or it has said why
-- it is not.
def AffinityTold (s : Ledger) (rc : Int) (s' : Ledger) : Prop :=
  s'.screen = s.screen ∧ (rc < 0 → s'.reported = true) ∧ (0 ≤ rc → s'.pinned = true)

theorem cpuSet_meets (regime : Regime b entry rely fine) (pins : entry ∈ [Entry.cpuid,Entry.runon]) (cpu : Int) (set : CpuSet) :
    (cpuSet b cpu set).Meets (entry.contract b rely fine) (fun _ s' => s' = s) s := by
  simp only [cpuSet]
  split
  · split <;> rfl
  · rename_i klibc
    split
    · rfl
    · exact regime.own _ (.inr ⟨pins,klibc,rfl⟩)

theorem setCpuAffinity_meets (regime : Regime b entry rely fine) (pins : entry ∈ [Entry.cpuid,Entry.runon]) (cpu : Int) :
    (setCpuAffinity b cpu).Meets (entry.contract b rely fine) (AffinityTold s) s := by
  refine ⟨trivial,fun stale _ => (cpuSet_meets regime pins cpu (cpuZero b stale)).bind (fun set s' same => ?_)⟩
  rw [contract_step] at same
  subst same
  simp only [Prog.call_bind,Prog.done_bind]
  refine ⟨pins,fun (result : Int) _ => ?_⟩
  dsimp only
  split
  · exact complain_meets ⟨rfl,fun _ => rfl,fun never => absurd never (by decide)⟩
  · rename_i granted
    refine ⟨rfl,fun never => absurd never (by decide),fun _ => ?_⟩
    exact decide_eq_true (Int.not_lt.mp granted)

theorem cpuidInline_meets (regime : Regime b .cpuid rely fine) (cpu : Int) (function index : Nat) :
    (cpuidInline b cpu function index).Meets (Entry.contract b .cpuid rely fine) (fun _ s' => s'.screen = s.screen) s := by
  refine (setCpuAffinity_meets regime (by decide) cpu).bind (fun rc s' pinned => ?_)
  obtain ⟨screen,reported,granted⟩ := pinned
  split
  · exact screen
  · rename_i positive
    exact ⟨⟨rfl,granted (by omega)⟩,fun data _ => screen⟩

theorem cpuid_meets (regime : Regime b .cpuid rely fine) (fresh : s.screen = .nothing) (info : CmdInfo) {argv : List Arg}
    (long : 3 ≤ argv.length) : (cpuid b argv info).Meets (Entry.contract b .cpuid rely fine) Verdict s := by
  refine argAt_meets (by omega) (fun cpu => argAt_meets (by omega) (fun function => ?_))
  dsimp only
  split
  · refine argAt_meets (by omega) (fun index => (cpuidInline_meets regime _ _ _).bind (fun found s' screen => ?_))
    cases found with
    | none => exact stderr_meets (Verdict.failed (screen.trans fresh) _)
    | some data => exact stdout_meets rfl (.inl (screen.trans fresh)) _ (Verdict.printed s' (le_refl 0))
  · refine (cpuidInline_meets regime _ _ _).bind (fun found s' screen => ?_)
    cases found with
    | none => exact stderr_meets (Verdict.failed (screen.trans fresh) _)
    | some data => exact stdout_meets rfl (.inl (screen.trans fresh)) _ (Verdict.printed s' (le_refl 0))

theorem runon_meets (regime : Regime b .runon rely fine) (fresh : s.screen = .nothing) (info : CmdInfo) {argv : List Arg}
    (long : 3 ≤ argv.length) : (runon b argv info).Meets (Entry.contract b .runon rely fine) Verdict s := by
  have first : 0 < (argv.drop 1).length := by
    rw [List.length_drop]
    omega
  have second : 0 < ((argv.drop 1).drop 1).length := by
    simp only [List.length_drop]
    omega
  refine argAt_meets first (fun cpu => (setCpuAffinity_meets regime (by decide) _).bind (fun rc s' pinned => ?_))
  obtain ⟨screen,reported,granted⟩ := pinned
  have clear : s'.screen = .nothing := screen.trans fresh
  split
  · rename_i negative
    exact ⟨fun _ => ⟨reported negative,clear⟩,.inl clear⟩
  · rename_i positive
    refine argAt_meets second (fun program => ⟨⟨rfl,granted (by omega)⟩,fun _ _ => ?_⟩)
    exact complained_meets clear _

theorem rdtsc_meets (fresh : s.screen = .nothing) (argv : List Arg) (info : CmdInfo) :
    (rdtsc argv info).Meets (Entry.contract b .rdtsc rely fine) Verdict s :=
  ⟨rfl,fun _ _ => stdout_meets rfl (.inl fresh) _ (Verdict.printed s (le_refl 0))⟩

theorem listCpus_meets (first left : Nat) (listing : Listing s) :
    (listCpus first left).Meets (Entry.contract b .cpuList rely fine) (fun _ s' => Listing s') s := by
  fun_induction listCpus first left generalizing s with
  | case1 => exact listing
  | case2 first left ih => exact stdout_meets rfl listing _ (ih (.inr rfl))

theorem cpuList_meets (fresh : s.screen = .nothing) (argv : List Arg) (info : CmdInfo) :
    (cpuList b argv info).Meets (Entry.contract b .cpuList rely fine) Verdict s := by
  unfold cpuList
  split
  · refine ⟨rfl,fun (ncpus : Int) _ => ?_⟩
    refine (listCpus_meets 0 _ (.inl fresh)).bind (fun _ s' listing => ?_)
    exact ⟨fun never => absurd never (by decide),listing⟩
  · exact stderr_meets (Verdict.failed fresh _)

theorem busyRounds_meets (regime : Regime b .busyLoop rely fine) (reps : Int) (fuel count : Nat) (printed : Int) (t0 : Int × Int)
    (listing : Listing s) : (busyRounds reps fuel count printed t0).Meets (Entry.contract b .busyLoop rely fine) Verdict s := by
  induction fuel generalizing count printed t0 s with
  | zero => exact regime.own _ (.inl ⟨rfl,rfl⟩)
  | succ fuel ih =>
    simp only [busyRounds,Prog.call_bind,Prog.done_bind]
    split
    · exact ⟨fun never => absurd never (by decide),listing⟩
    · split
      · refine ⟨rfl,fun t1 _ => ?_⟩
        dsimp only
        split
        · exact stdout_meets rfl listing _ ⟨rfl,fun t0 _ => ih _ _ _ (.inr rfl)⟩
        · exact ih _ _ _ listing
      · exact ih _ _ _ listing

theorem busyLoop_meets (regime : Regime b .busyLoop rely fine) (fresh : s.screen = .nothing) (fuel : Nat) (argv : List Arg)
    (info : CmdInfo) : (busyLoop b fuel argv info).Meets (Entry.contract b .busyLoop rely fine) Verdict s := by
  have rounds (reps : Int) : Prog.Meets (Entry.contract b .busyLoop rely fine) (do
      let t0 ← ask .gettimeofday
      busyRounds reps fuel 0 0 t0 : Action Int) Verdict s :=
    ⟨rfl,fun t0 _ => busyRounds_meets regime reps fuel 0 0 t0 (.inl fresh)⟩
  simp only [busyLoop]
  split
  · exact argAt_meets (by omega) (fun _ => rounds _)
  · exact rounds (-1)

end Processors

section Logic
variable {b : Build} {entry : Entry} {rely : Event Sys → Prop} {fine : Fault → Prop} {s : Ledger}

theorem printHex_meets (fresh : s.screen = .nothing) (prints : entry.prints = true) (value : Nat) {rc : Int} (positive : 0 ≤ rc) :
    (printHex value >>= fun _ => (.done rc : Action Int)).Meets (entry.contract b rely fine) Verdict s :=
  stdout_meets prints (.inl fresh) _ (Verdict.printed s positive)

theorem flag_positive (condition : Bool) : 0 ≤ flag condition := by
  cases condition <;> decide

theorem logicStep_positive (stepped : logicStep op result val = some (value,rc)) : 0 ≤ rc := by
  cases op with
  | or | and | xor | bts | btr =>
    cases stepped
    exact flag_positive _
  | shl | shr => cases stepped

theorem logicLoop_meets (fresh : s.screen = .nothing) {argv : List Arg} (held : info.privdata = .logicInfo op)
    (folds : op.folds = true) (argc position result : Nat) (rc : Int) (left : position + argc ≤ argv.length) (positive : 0 ≤ rc) :
    (logicLoop argv info argc position result rc).Meets (Entry.contract b .logicOp rely fine) Verdict s := by
  induction argc generalizing position result rc with
  | zero => exact printHex_meets fresh rfl result positive
  | succ argc ih =>
    refine argAt_meets (by omega) (fun arg => ?_)
    obtain ⟨next,stepped⟩ := logicStep_folds folds result (strtoull 0 arg.text).1
    simp only [logicInfoOf,held,Prog.pure_eq,Prog.done_bind,stepped]
    exact ih (position + 1) next.1 next.2 (by omega) (logicStep_positive stepped)

theorem logicOp_meets (fresh : s.screen = .nothing) {argv : List Arg} (held : info.privdata = .logicInfo op)
    (folds : op.folds = true) (long : 2 ≤ argv.length) :
    (logicOp argv info).Meets (Entry.contract b .logicOp rely fine) Verdict s :=
  argAt_meets (by omega) (fun _ => logicLoop_meets fresh held folds _ _ _ _ (by omega) (le_refl 0))

theorem not_meets (fresh : s.screen = .nothing) (info : CmdInfo) {argv : List Arg} (long : 2 ≤ argv.length) :
    (Iotools.not argv info).Meets (Entry.contract b .not rely fine) Verdict s :=
  argAt_meets (by omega) (fun _ => printHex_meets fresh rfl _ (flag_positive _))

theorem shift_meets (fresh : s.screen = .nothing) {argv : List Arg} (held : info.privdata = .logicInfo op)
    (shifts : op.folds = false) (long : 3 ≤ argv.length) :
    (shift b argv info).Meets (Entry.contract b .shift rely fine) Verdict s := by
  refine argAt_meets (by omega) (fun value => argAt_meets (by omega) (fun count => ?_))
  simp only [logicInfoOf,held,Prog.pure_eq,Prog.done_bind]
  cases op with
  | shl | shr => exact printHex_meets fresh rfl _ (le_refl 0)
  | or | and | xor | bts | btr => cases shifts

end Logic

-- How a command returns: the listing may fail after its first lines, and a
-- binary dump without having said so.
def CmdInfo.returns (info : CmdInfo) (argv : List Arg) (rc : Int) (s : Ledger) : Prop :=
  match info.entry with
  | .pciList => ListReturns rc s
  | .mmioDump => DumpReturns argv rc s
  | _ => Verdict rc s

def CmdInfo.carries (info : CmdInfo) : Bool :=
  !decide (info.entry ∈ busEntries) || info.entry.performs info.smbusOp

theorem everyCmd_carries : ∀ info ∈ everyCmd, info.carries = true := by
  decide +kernel

theorem carries_performs {info : CmdInfo} (carries : info.carries = true) (held : info.privdata = .smbusOp op)
    (bus : info.entry ∈ busEntries) : info.entry.performs op = true := by
  simp only [CmdInfo.carries,bus,decide_true,Bool.not_true,Bool.false_or,CmdInfo.smbusOp,held] at carries
  exact carries

section Commands
variable {b : Build} {info : CmdInfo} {rely : Event Sys → Prop} {fine : Fault → Prop} (regime : Regime b info.entry rely fine)
  {s : Ledger} (fresh : s.screen = .nothing)
include regime fresh

theorem entry_meets (fuel : Nat) (paired : info.paired = true) (carries : info.carries = true) {argv : List Arg}
    (long : info.reads ≤ argv.length) (granted : info.entry = .ioReadX ∨ info.entry = .ioWriteX → b.arch = .x86 → s.granted = true) :
    (info.entry.call b fuel argv info).Meets (info.entry.contract b rely fine) (info.returns argv) s := by
  have performs {op : SmbusOp} (held : info.privdata = .smbusOp op) := carries_performs carries held
  unfold CmdInfo.paired at paired
  unfold CmdInfo.reads CmdInfo.smbusOp at long
  unfold CmdInfo.returns
  revert paired long regime performs granted
  cases entry : info.entry with
  | smbusRead =>
    cases held : info.privdata with
    | smbusOp op => exact fun regime sound long _ performs => smbusRead_meets regime fresh (performs rfl (by decide)) sound held long
    | null | mmapFileFlags | logicInfo => exact fun _ never => nomatch never
  | smbusWrite =>
    cases held : info.privdata with
    | smbusOp op => exact fun regime sound long _ performs => smbusWrite_meets regime fresh (performs rfl (by decide)) sound held long
    | null | mmapFileFlags | logicInfo => exact fun _ never => nomatch never
  | smbusProcessCall =>
    cases held : info.privdata with
    | smbusOp op =>
      exact fun regime sound long _ performs => smbusProcessCall_meets regime fresh (performs rfl (by decide)) sound held long
    | null | mmapFileFlags | logicInfo => exact fun _ never => nomatch never
  | smbusWriteread =>
    cases held : info.privdata with
    | smbusOp op =>
      exact fun regime sound long _ performs => smbusWriteread_meets regime fresh (performs rfl (by decide)) sound held long
    | null | mmapFileFlags | logicInfo => exact fun _ never => nomatch never
  | mmioReadX =>
    cases held : info.privdata with
    | mmapFileFlags sync => exact fun _ sized long _ _ => mmioReadX_meets fresh long held (of_decide_eq_true sized)
    | null | smbusOp | logicInfo => exact fun _ never => nomatch never
  | mmioDump =>
    cases held : info.privdata with
    | mmapFileFlags sync => exact fun _ _ long _ _ => mmioDump_meets fresh long held
    | null | smbusOp | logicInfo => exact fun _ never => nomatch never
  | logicOp =>
    cases held : info.privdata with
    | logicInfo op => exact fun _ folds long _ _ => logicOp_meets fresh held folds long
    | null | smbusOp | mmapFileFlags => exact fun _ never => nomatch never
  | shift =>
    cases held : info.privdata with
    | logicInfo op => exact fun _ shifts long _ _ => shift_meets fresh held (by simpa using shifts) long
    | null | smbusOp | mmapFileFlags => exact fun _ never => nomatch never
  | mmioWriteX => exact fun _ sized long _ _ => mmioWriteX_meets fresh long (of_decide_eq_true sized)
  | pciReadX => exact fun _ sized long _ _ => pciReadX_meets fresh long (of_decide_eq_true sized)
  | pciWriteX => exact fun _ sized long _ _ => pciWriteX_meets fresh long (of_decide_eq_true sized)
  | ioReadX => exact fun _ sized long granted _ => ioReadX_meets fresh (granted (.inl rfl)) long (of_decide_eq_true sized)
  | ioWriteX => exact fun _ sized long granted _ => ioWriteX_meets fresh (granted (.inr rfl)) long (of_decide_eq_true sized)
  | pciList => exact fun _ _ _ _ _ => pciList_meets fresh argv info
  | busyLoop => exact fun regime _ _ _ _ => busyLoop_meets regime fresh fuel argv info
  | rdtsc => exact fun _ _ _ _ _ => rdtsc_meets fresh argv info
  | cpuList => exact fun _ _ _ _ _ => cpuList_meets fresh argv info
  | not => exact fun _ _ long _ _ => not_meets fresh info long
  | cpuid => exact fun regime _ long _ _ => cpuid_meets regime fresh info long
  | runon => exact fun regime _ long _ _ => runon_meets regime fresh info long
  | rdMsr => exact fun _ _ long _ _ => rdMsr_meets fresh info long
  | wrMsr => exact fun _ _ long _ _ => wrMsr_meets fresh info long
  | cmosRd => exact fun _ _ long _ _ => cmosRd_meets fresh info long
  | cmosWr => exact fun _ _ long _ _ => cmosWr_meets fresh info long
  | rdScom => exact fun _ _ long _ _ => rdScom_meets fresh info long
  | wrScom => exact fun _ _ long _ _ => wrScom_meets fresh info long
  | cpuToChipid => exact fun regime _ long _ _ => cpuToChipid_meets regime fresh info long
  | cpuToEx => exact fun regime _ long _ _ => cpuToEx_meets regime fresh info long

end Commands

def CmdInfo.privileged (info : CmdInfo) : Bool := info.params.any (fun p => p.ioplNeeded ≠ 0)

theorem everyCmd_privileged : ∀ info ∈ everyCmd, info.privileged = decide (info.entry ∈ [.ioReadX,.ioWriteX]) := by
  decide +kernel

theorem returns_failed {info : CmdInfo} {s : Ledger} (reported : s.reported = true) (fresh : s.screen = .nothing)
    (argv : List Arg) : info.returns argv (-1) s := by
  have verdict : Verdict (-1) s := ⟨fun _ => ⟨reported,fresh⟩,.inl fresh⟩
  unfold CmdInfo.returns
  split
  · exact ⟨fun _ => reported,.inl fresh⟩
  · exact ⟨fun _ => verdict,fun _ => ⟨.inl fresh,fun _ => .inl reported⟩⟩
  · exact verdict

-- What check_prereqs leaves behind when it lets a command pass.
structure Passed (b : Build) (info : CmdInfo) (argv : List Arg) (s s' : Ledger) : Prop where
  admitted : Admits info.params argv
  screen : s'.screen = s.screen
  granted : info.privileged = true → b.arch = .x86 → s'.granted = true

section Prereqs
variable {b : Build} {info : CmdInfo} {rely : Event Sys → Prop} {fine : Fault → Prop} {s : Ledger}

theorem checkPrereqs_meets (member : info ∈ everyCmd) {argv : List Arg} (called : argv ≠ []) :
    (checkPrereqs b argv info.params).Meets (info.entry.contract b rely fine)
      (fun rc s' => (rc < 0 ∧ s'.reported = true ∧ s'.screen = s.screen) ∨ (¬ rc < 0 ∧ Passed b info argv s s')) s := by
  have privileged := everyCmd_privileged info member
  cases params : info.params with
  | none =>
    have plain : info.privileged = false := by rw [CmdInfo.privileged,params]; rfl
    have admits : Admits info.params argv := by
      intro p never
      rw [params] at never
      cases never
    exact .inr ⟨by decide,admits,rfl,fun raised => absurd raised (by simp [plain])⟩
  | some p =>
    simp only [checkPrereqs]
    split
    · exact argAt_meets (List.length_pos_iff.mpr called) (fun name => stderr_meets (.inl ⟨by decide,rfl,rfl⟩))
    · rename_i counted
      have admits : Admits info.params argv := by
        intro q found
        rw [params] at found
        cases found
        omega
      have level : info.privileged = decide (p.ioplNeeded ≠ 0) := by rw [CmdInfo.privileged,params]; rfl
      split
      · rename_i raises
        have ports : info.entry ∈ [Entry.ioReadX,Entry.ioWriteX] := by
          rw [level,decide_eq_true raises.2] at privileged
          exact of_decide_eq_true privileged.symm
        simp only [Prog.call_bind,Prog.done_bind]
        refine ⟨⟨ports,raises.1⟩,fun (result : Int) _ => ?_⟩
        dsimp only
        split
        · exact stderr_meets (.inl ⟨by decide,rfl,rfl⟩)
        · rename_i obtained
          exact .inr ⟨by decide,admits,rfl,fun _ _ => decide_eq_true (Int.not_lt.mp obtained)⟩
      · rename_i plain
        refine .inr ⟨by decide,admits,rfl,fun raised x86 => absurd ⟨x86,?_⟩ plain⟩
        rw [level] at raised
        exact of_decide_eq_true raised

theorem runInfo_meets (member : info ∈ everyCmd) (regime : Regime b info.entry rely fine) (fresh : s.screen = .nothing)
    (fuel : Nat) {argv : List Arg} (called : argv ≠ []) :
    (runInfo b fuel argv info).Meets (info.entry.contract b rely fine) (info.returns argv) s := by
  obtain ⟨paired,reads⟩ := everyCmd_wellFormed info member
  refine (checkPrereqs_meets member called).bind (fun rc s' checked => ?_)
  rcases checked with ⟨negative,reported,screen⟩ | ⟨positive,passed⟩
  · rw [if_pos negative]
    exact returns_failed reported (screen.trans fresh) argv
  · rw [if_neg positive]
    refine entry_meets regime (passed.screen.trans fresh) fuel paired (everyCmd_carries info member)
      (reads.trans (passed.admitted.least (List.length_pos_iff.mpr called))) (fun ports x86 => ?_)
    refine passed.granted ?_ x86
    rw [everyCmd_privileged info member]
    rcases ports with port | port <;> rw [port] <;> decide

end Prereqs

end Iotools
