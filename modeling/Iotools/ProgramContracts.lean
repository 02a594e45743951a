import Iotools.CommandContracts
import Iotools.DumpText

namespace Iotools
open Bytes Numeral Interaction

structure Follows (s : Ledger) (trace : Trace Sys) : Prop where
  reported : s.reported = true → ∃ message reply, (⟨.stderr message,reply⟩ : Event Sys) ∈ trace
  nothing : s.screen = .nothing → Iotools.printed trace = []
  lines : s.screen = .lines → (Iotools.printed trace).getLast? = some '\n'
  binary : s.screen = .binary → ∃ bytes count, (⟨.fwrite bytes,count⟩ : Event Sys) ∈ trace

theorem Follows.quiet (follows : Follows s trace) (s' : Ledger) (e : Event Sys) (silent : output e = [])
    (reported : s'.reported = s.reported) (screen : s'.screen = s.screen) : Follows s' (trace ++ [e]) := by
  have same : Iotools.printed (trace ++ [e]) = Iotools.printed trace := by simp [silent]
  constructor
  · intro told
    obtain ⟨message,reply,member⟩ := follows.reported (reported ▸ told)
    exact ⟨message,reply,List.mem_append_left _ member⟩
  · exact fun clear => same.trans (follows.nothing (screen ▸ clear))
  · exact fun whole => same ▸ follows.lines (screen ▸ whole)
  · intro raw
    obtain ⟨bytes,count,member⟩ := follows.binary (screen ▸ raw)
    exact ⟨bytes,count,List.mem_append_left _ member⟩

theorem Follows.stdout (follows : Follows s trace) (text : Text) (reply : Unit) :
    Follows (s.step ⟨.stdout text,reply⟩) (trace ++ [⟨.stdout text,reply⟩]) := by
  have same : Iotools.printed (trace ++ [⟨.stdout text,reply⟩]) = Iotools.printed trace ++ text := by simp
  have screen : (s.step ⟨.stdout text,reply⟩).screen = s.screen.after text := rfl
  constructor
  · intro told
    obtain ⟨message,reply,member⟩ := follows.reported told
    exact ⟨message,reply,List.mem_append_left _ member⟩
  · intro clear
    rw [screen,Screen.after] at clear
    split at clear
    · cases clear
    · split at clear
      · rename_i empty
        rw [same,empty,List.append_nil]
        exact follows.nothing clear
      · split at clear <;> cases clear
  · intro whole
    rw [screen,Screen.after] at whole
    rw [same]
    split at whole
    · cases whole
    · split at whole
      · rename_i empty
        rw [empty,List.append_nil]
        exact follows.lines whole
      · split at whole
        · rename_i some_ last
          rw [List.getLast?_append,last]
          rfl
        · cases whole
  · intro raw
    rw [screen,Screen.after] at raw
    split at raw
    · rename_i before
      obtain ⟨bytes,count,member⟩ := follows.binary before
      exact ⟨bytes,count,List.mem_append_left _ member⟩
    · split at raw
      · obtain ⟨bytes,count,member⟩ := follows.binary raw
        exact ⟨bytes,count,List.mem_append_left _ member⟩
      · split at raw <;> cases raw

theorem Follows.step (follows : Follows s trace) (e : Event Sys) : Follows (s.step e) (trace ++ [e]) := by
  obtain ⟨call,answer⟩ := e
  cases call with
  | stdout text => exact follows.stdout text answer
  | stderr message =>
    refine {follows.quiet s ⟨.stderr message,answer⟩ rfl rfl rfl with reported := ?_}
    exact fun _ => ⟨message,answer,by simp⟩
  | fwrite bytes =>
    refine {follows.quiet s ⟨.fwrite bytes,answer⟩ rfl rfl rfl with nothing := ?_,lines := ?_,binary := ?_}
    · exact nofun
    · exact nofun
    · exact fun _ => ⟨bytes,answer,by simp⟩
  | glob pattern => cases answer <;> exact follows.quiet _ _ rfl rfl rfl
  | _ => exact follows.quiet _ _ rfl rfl rfl

def selected (b : Build) (argv : List Arg) : Option (CmdInfo × List Arg) :=
  let named (cmd : Text) := (registered b).find? (fun info => info.name.toList = cmd)
  match argv with
  | [] => none
  | first :: args =>
    match args.head?.bind (fun arg => named arg.text) with
    | some info => some (info,args)
    | none => (named (commandName first.text)).map (fun info => (info,first :: args))

section Order
variable {b : Build} {order : List Group} (perm : order.Perm (groups b)) (enough : order.length ≤ fuel)
include perm enough

theorem runCommand_selected {argv : List Arg} (chosen : selected b argv = some (info,vector)) :
    runCommand b (registerAll order) fuel argv = runInfo b fuel vector info ∧ info ∈ registered b ∧ vector ≠ [] := by
  have distinct := names_nodup b
  cases argv with
  | nil => cases chosen
  | cons first args =>
    unfold selected at chosen
    dsimp only at chosen
    cases args with
    | nil =>
      simp only [List.head?_nil,Option.bind_none,Option.map_eq_some_iff,Prod.mk.injEq] at chosen
      obtain ⟨info,found,rfl,rfl⟩ := chosen
      obtain ⟨member,named⟩ := (find?_unique distinct _ info).mp found
      have located := locateCommand_registered perm enough member
      rw [named] at located
      exact ⟨runCommand_named perm enough first [] (by simp) located,member,by simp⟩
    | cons arg rest =>
      simp only [List.head?_cons,Option.bind_some] at chosen
      cases found : (registered b).find? (fun info => info.name.toList = arg.text) with
      | some other =>
        rw [found] at chosen
        cases chosen
        obtain ⟨member,named⟩ := (find?_unique distinct _ _).mp found
        exact ⟨runCommand_direct perm enough member first arg rest named.symm,member,by simp⟩
      | none =>
        rw [found] at chosen
        simp only [Option.map_eq_some_iff,Prod.mk.injEq] at chosen
        obtain ⟨info,found',rfl,rfl⟩ := chosen
        obtain ⟨member,named⟩ := (find?_unique distinct _ info).mp found'
        have located := locateCommand_registered perm enough member
        rw [named] at located
        refine ⟨runCommand_named perm enough first _ ?_ located,member,by simp⟩
        intro arg' head other member' same
        cases head
        simpa [same] using List.find?_eq_none.mp found other member'

theorem runCommand_unselected {argv : List Arg} (called : argv ≠ []) (unnamed : selected b argv = none) :
    runCommand b (registerAll order) fuel argv = iotoolsFallback b (registerAll order) fuel argv := by
  cases argv with
  | nil => exact absurd rfl called
  | cons first args =>
    unfold selected at unnamed
    dsimp only at unnamed
    have absent (cmd : Text) (none_ : (registered b).find? (fun info => info.name.toList = cmd) = none) :
        ∀ info ∈ registered b, info.name.toList ≠ cmd := by
      intro info member same
      simpa [same] using List.find?_eq_none.mp none_ info member
    split at unnamed
    · cases unnamed
    · rename_i free
      rw [Option.map_eq_none_iff] at unnamed
      refine runCommand_unnamed perm enough first args ?_ (absent _ unnamed)
      intro arg head
      rw [head] at free
      exact absent arg.text free

end Order

-- What the fallback asks for: it makes and removes links, under the registered
-- names, in the directory where it found its own binary.
def housekeeps (b : Build) (s : Ledger) (c : Call) : Prop :=
  match c with
  | .stdout _ | .stderr _ | .strerror | .errnoIsEnoent => True
  | .readlink path => path = "/proc/self/exe".toList
  | .symlink target path =>
    ∃ binary dir, s.located = some binary ∧ splitLast binary = some (dir,target) ∧ path ∈ (registered b).map (buildSymlinkName dir)
  | .unlink path =>
    ∃ binary dir name, s.located = some binary ∧ splitLast binary = some (dir,name) ∧
      path ∈ (registered b).map (buildSymlinkName dir)
  | _ => False

def housekeeping (b : Build) (rely : Event Sys → Prop) (fine : Fault → Prop) : Contract Sys Fault Ledger :=
  ⟨Ledger.step,fun _ => rely,housekeeps b,fine⟩

def ledger (trace : Trace Sys) : Ledger := trace.foldl Ledger.step .start

theorem ledger_follows (trace : Trace Sys) : Follows (ledger trace) trace := by
  refine (housekeeping .x86_64 (fun _ => True) (fun _ => True)).after_invariant ?_ (fun s trace e follows => follows.step e) trace
  exact ⟨nofun,fun _ => rfl,nofun,nofun⟩

-- The path of the binary may be assumed to have a directory and an end, or the
-- faults of one that has not are tolerated.
def Hosted (rely : Event Sys → Prop) (fine : Fault → Prop) : Prop :=
  ∀ path target, rely ⟨.readlink path,some target⟩ →
    (filenameMax ≤ target.length → fine .pastNul) ∧ ('/' ∉ target → fine .nullPointer)

section Fallback
variable {b : Build} {rely : Event Sys → Prop} {fine : Fault → Prop} {s : Ledger} {post : α → Ledger → Prop}

theorem tells_meets {message : Message} {next : Unit → Action α} (rest : (next ()).Meets (housekeeping b rely fine) post s.complained) :
    (.call (.stderr message) next : Action α).Meets (housekeeping b rely fine) post s := ⟨trivial,fun _ _ => rest⟩

theorem says_meets {next : Unit → Action α} (listing : Listing s) (body : Text)
    (rest : (next ()).Meets (housekeeping b rely fine) post s.printed) :
    (.call (.stdout (body ++ "\n".toList)) next : Action α).Meets (housekeeping b rely fine) post s := by
  refine ⟨trivial,fun (answer : Unit) _ => ?_⟩
  have line : s.step ⟨.stdout (body ++ "\n".toList),answer⟩ = s.printed := by
    simp only [Ledger.step,Ledger.printed,Screen.after_line listing]
  change (next answer).Meets _ post (s.step ⟨.stdout (body ++ "\n".toList),answer⟩)
  rw [line]
  exact rest

theorem named_meets {argv : List Arg} (inside : index < argv.length) {next : Text → Action α}
    (rest : ∀ arg : Arg, (next arg.text).Meets (housekeeping b rely fine) post s) :
    (argAt argv index >>= next).Meets (housekeeping b rely fine) post s := by
  rw [argAt_of_lt argv index inside]
  exact rest _

-- The binary is found, or the failure has been reported.
def Locates (s : Ledger) (found : Option (Text × Text)) (s' : Ledger) : Prop :=
  s'.screen = s.screen ∧ (found = none → s'.reported = true) ∧
    ∀ dir name, found = some (dir,name) → ∃ binary, s'.located = some binary ∧ splitLast binary = some (dir,name)

theorem locatePathOfBinary_meets (hosted : Hosted rely fine) :
    locatePathOfBinary.Meets (housekeeping b rely fine) (Locates s) s := by
  simp only [locatePathOfBinary,Prog.call_bind,Prog.done_bind]
  refine ⟨rfl,fun answer relied => ?_⟩
  cases answer with
  | none =>
    refine tells_meets ⟨rfl,fun _ => rfl,?_⟩
    intro dir name found
    cases found
  | some target =>
    obtain ⟨endless,plain⟩ := hosted _ target relied
    dsimp only
    split
    · rename_i long
      exact endless long
    · cases parts : splitLast target with
      | none => exact plain (splitLast_none parts)
      | some pair =>
        refine ⟨rfl,?_,?_⟩
        · intro missing
          cases missing
        · intro dir name found
          cases found
          exact ⟨target,rfl,parts⟩

-- The links of one directory, and what is kept while they are made or removed.
def AtHome (binary dir name : Text) (s : Ledger) : Prop :=
  s.located = some binary ∧ splitLast binary = some (dir,name) ∧ Listing s

theorem makeLink_meets {binary dir name : Text} (home : AtHome binary dir name s) (member : cmd ∈ registered b) :
    (makeLink dir name cmd).Meets (housekeeping b rely fine) (fun _ s' => AtHome binary dir name s') s := by
  obtain ⟨located,parts,listing⟩ := home
  simp only [makeLink,Prog.call_bind,Prog.done_bind]
  refine says_meets listing _ ⟨⟨binary,dir,located,parts,List.mem_map_of_mem member⟩,fun (result : Int) _ => ?_⟩
  dsimp only
  split
  · exact tells_meets ⟨located,parts,.inr rfl⟩
  · exact ⟨located,parts,.inr rfl⟩

theorem cleanLink_meets {binary dir name : Text} (home : AtHome binary dir name s) (member : cmd ∈ registered b) :
    (cleanLink dir cmd).Meets (housekeeping b rely fine) (fun _ s' => AtHome binary dir name s') s := by
  obtain ⟨located,parts,listing⟩ := home
  simp only [cleanLink,Prog.call_bind,Prog.done_bind]
  refine ⟨⟨binary,dir,name,located,parts,List.mem_map_of_mem member⟩,fun (result : Int) _ => ?_⟩
  dsimp only
  split
  · refine ⟨trivial,fun (missing : Bool) _ => ?_⟩
    cases missing with
    | true => exact ⟨located,parts,listing⟩
    | false => exact ⟨trivial,fun _ _ => tells_meets ⟨located,parts,listing⟩⟩
  · exact ⟨located,parts,listing⟩

theorem commandLine_meets (cmd : CmdInfo) (listing : Listing s) :
    (ask (.stdout (commandLine cmd)) : Action Unit).Meets (housekeeping b rely fine) (fun _ s' => Listing s') s := by
  have line : commandLine cmd = ("  " ++ cmd.name).toList ++ "\n".toList := by simp [commandLine]
  rw [line]
  exact says_meets listing _ (.inr rfl)

theorem groupLine_eq (group : Group) : ∃ body, groupLine group = body ++ "\n".toList := by
  unfold groupLine
  split
  · exact ⟨(group.name ++ ": " ++ _).toList,String.toList_append⟩
  · exact ⟨group.name.toList,String.toList_append⟩

theorem usageText_eq (name : Text) : ∃ body, usageText name = body ++ "\n".toList := by
  have ends : (" COMMAND\n  COMMANDS:\n    --make-links\n    --clean-links\n" ++ "    --list-cmds\n    -v --version\n").toList =
      (" COMMAND\n  COMMANDS:\n    --make-links\n    --clean-links\n" ++ "    --list-cmds\n    -v --version").toList ++
        "\n".toList := by decide +kernel
  unfold usageText
  rw [ends]
  generalize (" COMMAND\n  COMMANDS:\n    --make-links\n    --clean-links\n" ++ "    --list-cmds\n    -v --version").toList = body
  exact ⟨_,(List.append_assoc _ _ _).symm⟩

theorem versionText_eq (name : Text) : ∃ body, versionText name = body ++ "\n".toList := by
  have ends : " version 1.6\n".toList = " version 1.6".toList ++ "\n".toList := by decide +kernel
  unfold versionText
  rw [ends]
  exact ⟨_,(List.append_assoc _ _ _).symm⟩

section Order
variable {order : List Group} (perm : order.Perm (groups b)) (enough : order.length ≤ fuel)
include perm

theorem member_registered (group : Group) (visited : group ∈ order.reverse) (listed : cmd ∈ group.commands b) :
    cmd ∈ registered b :=
  List.mem_flatMap.mpr ⟨group,perm.mem_iff.mp (List.mem_reverse.mp visited),listed⟩

include enough

theorem makeCommandLinks_meets (hosted : Hosted rely fine) (fresh : s.screen = .nothing) :
    (makeCommandLinks b (registerAll order) fuel).Meets (housekeeping b rely fine) Verdict s := by
  refine (locatePathOfBinary_meets hosted).bind (fun found s' locates => ?_)
  obtain ⟨screen,missing,located⟩ := locates
  cases found with
  | none => exact ⟨fun _ => ⟨missing rfl,screen.trans fresh⟩,.inl (screen.trans fresh)⟩
  | some place =>
    obtain ⟨binary,found,parts⟩ := located place.1 place.2 rfl
    have home : AtHome binary place.1 place.2 s' := ⟨found,parts,.inl (screen.trans fresh)⟩
    dsimp only
    rw [forGroups_registered perm enough]
    refine (Prog.each_meets order.reverse (fun group visited s home => ?_) s' home).bind (fun _ s'' kept => ?_)
    · exact Prog.each_meets _ (fun cmd listed s home => makeLink_meets home (member_registered perm group visited listed)) s home
    · exact ⟨fun never => absurd never (by decide),kept.2.2⟩

theorem cleanCommandLinks_meets (hosted : Hosted rely fine) (fresh : s.screen = .nothing) :
    (cleanCommandLinks b (registerAll order) fuel).Meets (housekeeping b rely fine) Verdict s := by
  refine (locatePathOfBinary_meets hosted).bind (fun found s' locates => ?_)
  obtain ⟨screen,missing,located⟩ := locates
  cases found with
  | none => exact ⟨fun _ => ⟨missing rfl,screen.trans fresh⟩,.inl (screen.trans fresh)⟩
  | some place =>
    obtain ⟨binary,found,parts⟩ := located place.1 place.2 rfl
    have home : AtHome binary place.1 place.2 s' := ⟨found,parts,.inl (screen.trans fresh)⟩
    dsimp only
    rw [forGroups_registered perm enough]
    refine (Prog.each_meets order.reverse (fun group visited s home => ?_) s' home).bind (fun _ s'' kept => ?_)
    · exact Prog.each_meets _ (fun cmd listed s home => cleanLink_meets home (member_registered perm group visited listed)) s home
    · exact ⟨fun never => absurd never (by decide),kept.2.2⟩

theorem listCommands_meets (fresh : s.screen = .nothing) :
    (listCommands b (registerAll order) fuel).Meets (housekeeping b rely fine) Verdict s := by
  have start : Listing s := .inl fresh
  unfold listCommands
  rw [forGroups_registered perm enough]
  refine (Prog.each_meets order.reverse (fun group _ s listing => ?_) s start).bind (fun _ s' kept => ?_)
  · obtain ⟨body,line⟩ := groupLine_eq group
    rw [line]
    exact says_meets listing body (Prog.each_meets _ (fun cmd _ s listing => commandLine_meets cmd listing) s.printed (.inr rfl))
  · exact ⟨fun never => absurd never (by decide),kept⟩

theorem iotoolsFallback_meets (hosted : Hosted rely fine) (fresh : s.screen = .nothing) {argv : List Arg} (called : argv ≠ []) :
    (iotoolsFallback b (registerAll order) fuel argv).Meets (housekeeping b rely fine) Verdict s := by
  have first : 0 < argv.length := List.length_pos_iff.mpr called
  unfold iotoolsFallback
  split
  · exact named_meets first (fun name => tells_meets (Verdict.failed fresh _))
  · refine named_meets (by omega) (fun command => ?_)
    split
    · refine named_meets first (fun name => ?_)
      obtain ⟨body,lines⟩ := usageText_eq name.text
      rw [lines]
      exact says_meets (.inl fresh) _ (Verdict.printed s (le_refl 0))
    · split
      · exact makeCommandLinks_meets perm enough hosted fresh
      · split
        · exact cleanCommandLinks_meets perm enough hosted fresh
        · split
          · exact listCommands_meets perm enough fresh
          · split
            · refine named_meets first (fun name => ?_)
              obtain ⟨body,line⟩ := versionText_eq name.text
              rw [line]
              exact says_meets (.inl fresh) _ (Verdict.printed s (le_refl 0))
            · exact tells_meets (named_meets first (fun name => tells_meets (Verdict.failed fresh _)))

end Order

end Fallback

section Program
variable (b : Build) (order : List Group) (perm : order.Perm (groups b)) (fuel : Nat) (enough : order.length ≤ fuel)
  (argv : List Arg) {rely : Event Sys → Prop} {fine : Fault → Prop}
include perm enough

theorem selected_run (chosen : selected b argv = some (info,vector)) (regime : Regime b info.entry rely fine) :
    (runCommand b (registerAll order) fuel argv).All (fun trace outcome => (∀ e ∈ trace, rely e) →
      (info.entry.contract b rely fine).Guaranteed .start trace ∧
      (∀ rc, outcome = .ok rc → info.returns vector rc (ledger trace)) ∧ ∀ reason, outcome = .error reason → fine reason) := by
  obtain ⟨same,member,called⟩ := runCommand_selected perm enough chosen
  rw [same]
  have fresh : Ledger.start.screen = .nothing := rfl
  refine (runInfo_meets (mem_everyCmd member) regime fresh fuel called).all.mono (fun trace outcome ends lawful => ?_)
  exact ends (Contract.relied_of_events _ (fun _ => lawful) _)

theorem unselected_run (called : argv ≠ []) (unnamed : selected b argv = none) (hosted : Hosted rely fine) :
    (runCommand b (registerAll order) fuel argv).All (fun trace outcome => (∀ e ∈ trace, rely e) →
      (housekeeping b rely fine).Guaranteed .start trace ∧
      (∀ rc, outcome = .ok rc → Verdict rc (ledger trace)) ∧ ∀ reason, outcome = .error reason → fine reason) := by
  rw [runCommand_unselected perm enough called unnamed]
  have fresh : Ledger.start.screen = .nothing := rfl
  refine (iotoolsFallback_meets perm enough hosted fresh called).all.mono (fun trace outcome ends lawful => ?_)
  exact ends (Contract.relied_of_events _ (fun _ => lawful) _)

end Program

theorem writers_silent (member : info ∈ everyCmd) (silent : info.entry.prints = false) (b : Build) (fuel : Nat) (argv : List Arg)
    (called : argv ≠ []) (kernel : Kernel Sys σ) (s : σ) : printed ((runInfo b fuel argv info).exec kernel s).trace = [] := by
  have fresh : Ledger.start.screen = .nothing := rfl
  have meets := runInfo_meets member (regime_any b info.entry) fresh fuel called
  have kept := (meets.all.exec kernel s (Contract.relied_of_events _ (fun _ _ _ => trivial) _)).1
  have implies : ∀ ledger (call : Call), info.entry.permits b ledger call → ∀ text, call ≠ .stdout text := by
    intro ledger call allowed text same
    rw [same] at allowed
    have prints : info.entry.prints = true := allowed
    rw [silent] at prints
    cases prints
  have permitted := Contract.guaranteed_events _ implies kept
  apply List.flatMap_eq_nil_iff.mpr
  intro e asked
  obtain ⟨call,answer⟩ := e
  cases call with
  | stdout text => exact absurd rfl (permitted _ asked text)
  | _ => rfl

theorem hosted_any : Hosted (fun _ => True) (fun _ => True) := fun _ _ _ => ⟨fun _ => trivial,fun _ => trivial⟩

-- Whatever the environment answers, a run asks only for what the selected
-- command is entitled to, and without one for what the fallback is.
theorem program_confined (b : Build) (order : List Group) (perm : order.Perm (groups b)) (fuel : Nat)
    (enough : order.length ≤ fuel) (argv : List Arg) (called : argv ≠ []) (σ : Type) (kernel : Kernel Sys σ) (s : σ)
    (before later : Trace Sys) (e : Event Sys)
    (asked : ((runCommand b (registerAll order) fuel argv).exec kernel s).trace = before ++ e :: later) :
    (∀ info vector, selected b argv = some (info,vector) → info.entry.permits b (ledger before) e.call) ∧
    (selected b argv = none → housekeeps b (ledger before) e.call) := by
  constructor
  · intro info vector chosen
    have run := (selected_run b order perm fuel enough argv chosen (regime_any b info.entry)).exec kernel s (fun _ _ => trivial)
    have kept := run.1
    rw [asked] at kept
    exact Contract.guaranteed_split _ kept
  · intro unnamed
    have run := (unselected_run b order perm fuel enough argv called unnamed hosted_any).exec kernel s (fun _ _ => trivial)
    have kept := run.1
    rw [asked] at kept
    exact Contract.guaranteed_split _ kept

theorem program_confined_port :
    let run := (runCommand .x86_64 (registerAll (groups .x86_64)) 9 (["iotools","io_read8","0x70"].map Arg.of)).exec smooth ()
    ∃ before later answer, run.trace = before ++ ⟨.portIn 1 0x70,answer⟩ :: later ∧ (ledger before).granted = true := by
  intro run
  have asked : run.trace = [⟨.iopl 3,(0 : Int)⟩] ++ ⟨.portIn 1 0x70,Buffer.zero⟩ :: [⟨.stdout "0x00\n".toList,()⟩] := rfl
  have confined := program_confined .x86_64 (groups .x86_64) (.refl _) 9 (by decide)
    (["iotools","io_read8","0x70"].map Arg.of) (by decide) Unit smooth () _ _ _ asked
  have chosen : (selected .x86_64 (["iotools","io_read8","0x70"].map Arg.of)).isSome = true := by decide +kernel
  obtain ⟨pair,chosen⟩ := Option.isSome_iff_exists.mp chosen
  exact ⟨_,_,_,asked,(confined.1 pair.1 pair.2 chosen).2.2⟩

def dumpOption (b : Build) (argv : List Arg) : Option Text :=
  (selected b argv).bind (fun chosen =>
    if chosen.1.entry = .mmioDump ∧ chosen.2.length = 4 then chosen.2[3]?.map Arg.text else none)

def listsDevices (b : Build) (argv : List Arg) : Prop := ∃ chosen, selected b argv = some chosen ∧ chosen.1.entry = .pciList

theorem mmioDump_unprinted (b : Build) (info : CmdInfo) (four : argv.length = 4) :
    (mmioDump b argv info).Safe (fun e => output e = []) (fun _ => True) := by
  have maps (addr : Nat) (flags : OpenFlags) (bytes : Nat) :
      (openMapping addr flags bytes).Safe (fun e => output e = []) (fun _ => True) :=
    (openMapping_setsUp addr flags bytes).mono (fun _ => setup_output) (fun _ _ => trivial)
  have flags : (mmapFlagsOf info).Safe (fun e => output e = []) (fun _ => True) := by
    unfold mmapFlagsOf
    split <;> trivial
  unfold mmioDump
  rw [argAt_of_lt argv 1 (by omega),argAt_of_lt argv 2 (by omega),argAt_of_lt argv 3 (by omega)]
  simp only [Prog.done_bind,four,if_true]
  split
  · refine flags.bind (fun sync => (maps _ _ _).bind (fun opened => ?_))
    cases opened with
    | none => trivial
    | some mapping => exact fun buffer => ⟨rfl,fun written => ⟨rfl,fun _ => ⟨rfl,fun _ => ⟨rfl,trivial⟩⟩⟩⟩
  · trivial

theorem dump_unprinted (b : Build) (fuel : Nat) (entry : info.entry = .mmioDump) (four : argv.length = 4) :
    (runInfo b fuel argv info).All (fun trace _ => printed trace = []) := by
  have counted := (checkPrereqs_setup b argv info.params).mono (fun _ => setup_output) (fun _ _ => trivial)
  have safe : (runInfo b fuel argv info).Safe (fun e => output e = []) (fun _ => True) := by
    refine counted.bind (fun rc => ?_)
    split
    · trivial
    · rw [entry]
      exact mmioDump_unprinted b info four
  exact safe.all.mono (fun trace _ silent => List.flatMap_eq_nil_iff.mpr silent.1)

theorem exitStatus_failed (failed : exitStatus rc = 1) : rc < 0 := by
  unfold exitStatus at failed
  split at failed
  · assumption
  · cases failed

theorem Follows.listing (follows : Follows s trace) (listing : Listing s) :
    printed trace = [] ∨ (printed trace).getLast? = some '\n' :=
  listing.imp follows.nothing follows.lines

theorem Follows.verdict (follows : Follows s trace) (verdict : Verdict rc s) :
    (printed trace = [] ∨ (printed trace).getLast? = some '\n') ∧ (exitStatus rc = 1 →
      (∃ message reply, (⟨.stderr message,reply⟩ : Event Sys) ∈ trace) ∧ (¬ listsDevices b argv → printed trace = [])) := by
  refine ⟨follows.listing verdict.2,fun failed => ?_⟩
  obtain ⟨told,clear⟩ := verdict.1 (exitStatus_failed failed)
  exact ⟨follows.reported told,fun _ => follows.nothing clear⟩

theorem dumpOption_selected (chosen : selected b argv = some (info,vector)) :
    dumpOption b argv = if info.entry = .mmioDump ∧ vector.length = 4 then vector[3]?.map Arg.text else none := by
  rw [dumpOption,chosen]
  rfl

-- Every run that returns leaves whole lines on stdout. One that fails has said
-- why on stderr and printed nothing, except that a listing may fail after its
-- first lines; a dump with an option prints no text, and reports neither a wrong
-- option nor bytes that were not taken.
theorem program_reports (b : Build) (order : List Group) (perm : order.Perm (groups b)) (fuel : Nat)
    (enough : order.length ≤ fuel) (argv : List Arg) (called : argv ≠ []) (σ : Type) (kernel : Kernel Sys σ) (s : σ) (rc : Int)
    (returned : ((runCommand b (registerAll order) fuel argv).exec kernel s).outcome = .ok rc) :
    let run := (runCommand b (registerAll order) fuel argv).exec kernel s
    let reported := ∃ message reply, (⟨.stderr message,reply⟩ : Event Sys) ∈ run.trace
    (dumpOption b argv = none → (printed run.trace = [] ∨ (printed run.trace).getLast? = some '\n') ∧
      (exitStatus rc = 1 → reported ∧ (¬ listsDevices b argv → printed run.trace = []))) ∧
    (∀ option, dumpOption b argv = some option → printed run.trace = [] ∧ (exitStatus rc = 1 →
      reported ∨ (∃ bytes count, (⟨.fwrite bytes,count⟩ : Event Sys) ∈ run.trace) ∨ option ≠ "-b".toList)) := by
  intro run reported
  have follows := ledger_follows run.trace
  cases chosen : selected b argv with
  | none =>
    have ends := (unselected_run b order perm fuel enough argv called chosen hosted_any).exec kernel s (fun _ _ => trivial)
    refine ⟨fun _ => follows.verdict (ends.2.1 rc returned),fun option given => ?_⟩
    rw [dumpOption,chosen] at given
    cases given
  | some pair =>
    have ends := (selected_run b order perm fuel enough argv chosen (regime_any b pair.1.entry)).exec kernel s (fun _ _ => trivial)
    have returns := ends.2.1 rc returned
    rw [dumpOption_selected chosen]
    unfold CmdInfo.returns at returns
    split at returns
    · rename_i entry
      rw [if_neg (fun both => by rw [entry] at both; cases both.1)]
      refine ⟨fun _ => ⟨follows.listing returns.2,fun failed => ?_⟩,nofun⟩
      exact ⟨follows.reported (returns.1 (exitStatus_failed failed)),fun other => absurd ⟨pair,chosen,entry⟩ other⟩
    · rename_i entry
      by_cases four : pair.2.length = 4
      · rw [if_pos ⟨entry,four⟩]
        obtain ⟨screen,silent⟩ := returns.2 four
        constructor
        · intro none_
          rw [List.getElem?_eq_getElem (by omega)] at none_
          cases none_
        · intro given same
          refine ⟨?_,fun failed => ?_⟩
          · have unprinted := (dump_unprinted b fuel entry four).exec kernel s
            rwa [← (runCommand_selected perm enough chosen).1] at unprinted
          · rcases silent (exitStatus_failed failed) with told | raw | other
            · exact .inl (follows.reported told)
            · exact .inr (.inl (follows.binary raw))
            · exact .inr (.inr (fun minus => other (same.trans (congrArg some minus))))
      · rw [if_neg (fun both => four both.2)]
        exact ⟨fun _ => follows.verdict (returns.1 four),nofun⟩
    · rename_i entry
      rw [if_neg (fun both => entry both.1)]
      exact ⟨fun _ => follows.verdict returns,nofun⟩

theorem program_reports_operand :
    let run := (runCommand .x86_64 (registerAll (groups .x86_64)) 9
      (["iotools","smbus_read8","0","0x50","0x1g"].map Arg.of)).exec smooth ()
    (∃ message reply, (⟨.stderr message,reply⟩ : Event Sys) ∈ run.trace) ∧ printed run.trace = [] := by
  intro run
  have returned : run.outcome = .ok (-1) := by decide +kernel
  have entry : (selected .x86_64 (["iotools","smbus_read8","0","0x50","0x1g"].map Arg.of)).map (fun chosen => chosen.1.entry) =
      some .smbusRead := by decide +kernel
  have reports := program_reports .x86_64 (groups .x86_64) (.refl _) 9 (by decide)
    (["iotools","smbus_read8","0","0x50","0x1g"].map Arg.of) (by decide) Unit smooth () (-1) returned
  obtain ⟨reported,silent⟩ := (reports.1 (by decide +kernel)).2 rfl
  refine ⟨reported,silent ?_⟩
  intro lists
  obtain ⟨chosen,found,lists⟩ := lists
  rw [found,Option.map_some,lists] at entry
  cases entry

end Iotools
