import Iotools.Links
import Iotools.ProgramContracts
import Iotools.Sessions

namespace Iotools
open Numeral Interaction

-- The two options that touch files, and what each is for at the name of one
-- command.
inductive Upkeep where
  | make | clean
  deriving DecidableEq

def Upkeep.step (name : Text) (upkeep : Upkeep) (slot : Option Node) : Option Node :=
  match upkeep with
  | .make => some (slot.getD (.symlink name))
  | .clean => if slot = some .directory then slot else none

theorem Upkeep.step_again (name : Text) (upkeep : Upkeep) (slot : Option Node) :
    upkeep.step name (upkeep.step name slot) = upkeep.step name slot := by
  cases upkeep with
  | make => rfl
  | clean =>
    by_cases directory : slot = some .directory
    · simp [Upkeep.step,directory]
    · simp [Upkeep.step,directory]

def Upkeep.program (b : Build) (registry : Registry) (fuel : Nat) (upkeep : Upkeep) : Action Int :=
  match upkeep with
  | .make => makeCommandLinks b registry fuel
  | .clean => cleanCommandLinks b registry fuel

def upkeepOption (option : Text) : Option Upkeep :=
  if option = "--make-links".toList then some .make
  else if option = "--clean-links".toList then some .clean
  else none

def requested (b : Build) (argv : List Arg) : Option Upkeep :=
  if (selected b argv).isNone ∧ argv.length = 2 then argv[1]?.bind (fun option => upkeepOption option.text) else none

-- What a run asked for this makes of a name.
def mended (name : Text) (upkeep : Option Upkeep) (slot : Option Node) : Option Node :=
  upkeep.elim slot (fun upkeep => upkeep.step name slot)

theorem mended_again (name : Text) (upkeep : Option Upkeep) (slot : Option Node) :
    mended name upkeep (mended name upkeep slot) = mended name upkeep slot := by
  cases upkeep with
  | none => rfl
  | some upkeep => exact upkeep.step_again name slot

def tendedPath (c : Call) : Option Text :=
  match c with
  | .symlink _ path | .unlink path => some path
  | _ => none

def tendedPaths (trace : Trace Sys) : List Text := trace.filterMap (fun e => tendedPath e.call)

theorem tendedPaths_append (left right : Trace Sys) : tendedPaths (left ++ right) = tendedPaths left ++ tendedPaths right :=
  List.filterMap_append

def tending (path : Text) (c : Call) : Nat := if tendedPath c = some path then 1 else 0

theorem tending_some {c : Call} : tending path c ≠ 0 ↔ tendedPath c = some path := by simp [tending]

-- Where the binary lies, if that is told.
def Finds (binary : Binary) (e : Event Sys) : Prop :=
  match e with
  | ⟨.readlink _,found⟩ => found = some binary.path ∨ found = none
  | _ => True

def unlocated : Event Sys := ⟨.readlink "/proc/self/exe".toList,none⟩

def Mends (b : Build) (binary : Binary) (upkeep : Option Upkeep) (c : Call) : Prop :=
  match c with
  | .symlink target path => upkeep = some .make ∧ target = binary.name ∧ path ∈ linkNames b binary.dir
  | .unlink path => upkeep = some .clean ∧ path ∈ linkNames b binary.dir
  | _ => True

def talks : Event Sys → Prop
  | ⟨.stdout _,_⟩ | ⟨.stderr _,_⟩ => True
  | _ => False

theorem talks_mends (b : Build) (binary : Binary) (upkeep : Option Upkeep) (e : Event Sys) (talking : talks e) :
    Mends b binary upkeep e.call := by
  obtain ⟨call,answer⟩ := e
  cases call with
  | symlink target path => exact talking.elim
  | unlink path => exact talking.elim
  | _ => trivial

-- One round of the loop of either option.
def Upkeep.round (upkeep : Upkeep) (dir name : Text) : CmdInfo → Action Unit :=
  match upkeep with
  | .make => makeLink dir name
  | .clean => cleanLink dir

section Rounds
variable (b : Build) (binary : Binary)

theorem makeLink_mends (listed : cmd ∈ registered b) :
    (makeLink binary.dir binary.name cmd).Safe (fun e => Mends b binary (some .make) e.call) (fun _ => False) := by
  have inside : buildSymlinkName binary.dir cmd ∈ linkNames b binary.dir := List.mem_map_of_mem listed
  simp only [makeLink,Prog.call_bind,Prog.done_bind]
  refine fun _ => ⟨trivial,fun (result : Int) => ⟨⟨rfl,rfl,inside⟩,?_⟩⟩
  dsimp only
  split
  · exact fun _ => ⟨trivial,trivial⟩
  · trivial

theorem cleanLink_mends (listed : cmd ∈ registered b) :
    (cleanLink binary.dir cmd).Safe (fun e => Mends b binary (some .clean) e.call) (fun _ => False) := by
  have inside : buildSymlinkName binary.dir cmd ∈ linkNames b binary.dir := List.mem_map_of_mem listed
  simp only [cleanLink,Prog.call_bind,Prog.done_bind]
  refine fun (result : Int) => ⟨⟨rfl,inside⟩,?_⟩
  dsimp only
  split
  · refine fun (missing : Bool) => ⟨trivial,?_⟩
    cases missing with
    | true => trivial
    | false => exact fun _ => ⟨trivial,fun _ => ⟨trivial,trivial⟩⟩
  · trivial

theorem makeLink_tended (dir name : Text) (cmd : CmdInfo) :
    (makeLink dir name cmd).All (fun trace outcome => outcome = .ok () ∧ tendedPaths trace = [buildSymlinkName dir cmd]) := by
  simp only [makeLink,Prog.call_bind,Prog.done_bind,Prog.all_call]
  intro _ (result : Int)
  split
  · intro _
    exact ⟨rfl,rfl⟩
  · exact ⟨rfl,rfl⟩

theorem cleanLink_tended (dir : Text) (cmd : CmdInfo) :
    (cleanLink dir cmd).All (fun trace outcome => outcome = .ok () ∧ tendedPaths trace = [buildSymlinkName dir cmd]) := by
  simp only [cleanLink,Prog.call_bind,Prog.done_bind,Prog.all_call]
  intro (result : Int)
  split
  · simp only [Prog.all_call]
    intro (missing : Bool)
    cases missing with
    | true => exact ⟨rfl,rfl⟩
    | false =>
      intro _ _
      exact ⟨rfl,rfl⟩
  · exact ⟨rfl,rfl⟩

theorem round_mends (upkeep : Upkeep) (listed : cmd ∈ registered b) :
    (upkeep.round binary.dir binary.name cmd).Safe (fun e => Mends b binary (some upkeep) e.call) (fun _ => False) := by
  cases upkeep with
  | make => exact makeLink_mends b binary listed
  | clean => exact cleanLink_mends b binary listed

theorem round_tended (upkeep : Upkeep) (dir name : Text) (cmd : CmdInfo) :
    (upkeep.round dir name cmd).All (fun trace outcome =>
      outcome = .ok () ∧ tendedPaths trace = [buildSymlinkName dir cmd]) := by
  cases upkeep with
  | make => exact makeLink_tended dir name cmd
  | clean => exact cleanLink_tended dir cmd

theorem locatePathOfBinary_finds (upkeep : Option Upkeep) :
    locatePathOfBinary.All (fun trace outcome => (∀ e ∈ trace, Mends b binary upkeep e.call) ∧
      ((∀ e ∈ trace, Finds binary e) →
        outcome = .ok (some (binary.dir,binary.name)) ∨ outcome = .ok none ∧ unlocated ∈ trace)) := by
  simp only [locatePathOfBinary,Prog.call_bind,Prog.done_bind,Prog.all_call]
  intro target
  cases target with
  | none =>
    intro _
    exact ⟨by simp [Mends],fun _ => .inr ⟨rfl,List.mem_cons_self⟩⟩
  | some target =>
    have path (lawful : Finds binary ⟨.readlink "/proc/self/exe".toList,some target⟩) : target = binary.path := by
      rcases lawful with found | never
      · exact Option.some.inj found
      · cases never
    have fits : ¬ filenameMax ≤ binary.path.length := Nat.not_le.mpr binary.fits
    have parts := binary.parts
    dsimp only
    split
    · rename_i long
      refine ⟨by simp [Mends],fun lawful => ?_⟩
      rw [path (lawful _ List.mem_cons_self)] at long
      exact absurd long fits
    · cases found : splitLast target with
      | none =>
        refine ⟨by simp [Mends],fun lawful => ?_⟩
        rw [path (lawful _ List.mem_cons_self),parts] at found
        cases found
      | some place =>
        refine ⟨by simp [Mends],fun lawful => ?_⟩
        rw [path (lawful _ List.mem_cons_self),parts] at found
        cases found
        exact .inl rfl

end Rounds

-- What a program with this upkeep to do promises.
def Promised (b : Build) (binary : Binary) (upkeep : Option Upkeep) (trace : Trace Sys) (outcome : Except Fault Int) : Prop :=
  (∀ e ∈ trace, Mends b binary upkeep e.call) ∧
  (upkeep ≠ none → (outcome = .ok 0 ∧ ∀ path ∈ linkNames b binary.dir, path ∈ tendedPaths trace) ∨
    outcome = .ok (-1) ∧ unlocated ∈ trace)

theorem argAt_talks (argv : List Arg) (index : Nat) : (argAt argv index).Safe talks (fun _ => True) := by
  unfold argAt
  split <;> trivial

theorem fallback_make (b : Build) (registry : Registry) (fuel : Nat) (argv : List Arg) (two : argv.length = 2)
    (given : argv[1]? = some option) (make : option.text = "--make-links".toList) :
    iotoolsFallback b registry fuel argv = makeCommandLinks b registry fuel := by
  have other : option.text ≠ "--help".toList := by
    rw [make]
    decide
  unfold iotoolsFallback
  rw [if_neg (not_not.mpr two),argAt_found given,Prog.done_bind,if_neg other,if_pos make]

theorem fallback_clean (b : Build) (registry : Registry) (fuel : Nat) (argv : List Arg) (two : argv.length = 2)
    (given : argv[1]? = some option) (clean : option.text = "--clean-links".toList) :
    iotoolsFallback b registry fuel argv = cleanCommandLinks b registry fuel := by
  have other : option.text ≠ "--help".toList ∧ option.text ≠ "--make-links".toList := by
    rw [clean]
    decide
  unfold iotoolsFallback
  rw [if_neg (not_not.mpr two),argAt_found given,Prog.done_bind,if_neg other.1,if_neg other.2,if_pos clean]

theorem requested_option (unselected : selected b argv = none) (two : argv.length = 2) (given : argv[1]? = some arg) :
    requested b argv = upkeepOption arg.text := by
  unfold requested
  rw [if_pos ⟨by rw [unselected]; rfl,two⟩,given]
  rfl

theorem fallback_usage (b : Build) (registry : Registry) (fuel : Nat) (argv : List Arg) (other : argv.length ≠ 2) :
    (iotoolsFallback b registry fuel argv).Safe talks (fun _ => True) := by
  unfold iotoolsFallback
  rw [if_pos other]
  exact (argAt_talks argv 0).bind (fun name answer => ⟨trivial,trivial⟩)

section Order
variable {b : Build} {order : List Group} (perm : order.Perm (groups b)) (enough : order.length ≤ fuel)
include perm

theorem visited_links (dir path : Text) :
    path ∈ (order.reverse.flatMap (Group.commands b)).map (buildSymlinkName dir) ↔ path ∈ linkNames b dir :=
  ((visits_perm perm).map _).mem_iff

include enough

theorem listCommands_talks : (listCommands b (registerAll order) fuel).Safe talks (fun _ => True) := by
  unfold listCommands
  rw [forGroups_registered perm enough]
  apply (Prog.each_safe _ (fun group _ => ?_)).bind
  · intro _
    trivial
  · intro _
    exact ⟨trivial,Prog.each_safe _ (fun cmd _ _ => ⟨trivial,trivial⟩)⟩

theorem fallback_talks (argv : List Arg) (two : argv.length = 2) (given : argv[1]? = some option)
    (other : option.text ≠ "--make-links".toList ∧ option.text ≠ "--clean-links".toList) :
    (iotoolsFallback b (registerAll order) fuel argv).Safe talks (fun _ => True) := by
  unfold iotoolsFallback
  rw [if_neg (not_not.mpr two),argAt_found given,Prog.done_bind,if_neg other.1,if_neg other.2]
  have help (message : Text → Call) (telling : ∀ text answer, talks ⟨message text,answer⟩) (rc : Int) :
      (argAt argv 0 >>= fun name => Prog.call (message name) (fun _ => .done rc) : Action Int).Safe talks (fun _ => True) :=
    (argAt_talks argv 0).bind (fun name answer => ⟨telling name answer,trivial⟩)
  split
  · exact help (fun name => .stdout (usageText name)) (fun _ _ => trivial) 0
  · split
    · exact listCommands_talks perm enough
    · split
      · exact help (fun name => .stdout (versionText name)) (fun _ _ => trivial) 0
      · exact fun _ => ⟨trivial,help (fun name => .stderr (.helpText name)) (fun _ _ => trivial) (-1)⟩

theorem runCommand_requested (argv : List Arg) (called : argv ≠ []) :
    (∀ upkeep, requested b argv = some upkeep →
      runCommand b (registerAll order) fuel argv = upkeep.program b (registerAll order) fuel) ∧
    (requested b argv = none → (∃ chosen, selected b argv = some chosen) ∨
      (runCommand b (registerAll order) fuel argv).Safe talks (fun _ => True)) := by
  cases chosen : selected b argv with
  | some pair =>
    have idle : requested b argv = none := if_neg (by simp [chosen])
    rw [idle]
    refine ⟨?_,fun _ => .inl ⟨pair,rfl⟩⟩
    intro upkeep never
    cases never
  | none =>
    rw [runCommand_unselected perm enough called chosen]
    by_cases two : argv.length = 2
    · have given : argv[1]? = some argv[1] := List.getElem?_eq_getElem (by omega)
      rw [requested_option chosen two given]
      by_cases make : argv[1].text = "--make-links".toList
      · rw [upkeepOption,if_pos make]
        refine ⟨?_,fun never => (by cases never)⟩
        intro upkeep same
        cases same
        exact fallback_make b _ fuel argv two given make
      · by_cases clean : argv[1].text = "--clean-links".toList
        · rw [upkeepOption,if_neg make,if_pos clean]
          refine ⟨?_,fun never => (by cases never)⟩
          intro upkeep same
          cases same
          exact fallback_clean b _ fuel argv two given clean
        · rw [upkeepOption,if_neg make,if_neg clean]
          refine ⟨?_,fun _ => .inr (fallback_talks perm enough argv two given ⟨make,clean⟩)⟩
          intro upkeep never
          cases never
    · have idle : requested b argv = none := if_neg (fun both => two both.2)
      rw [idle]
      refine ⟨?_,fun _ => .inr (fallback_usage b _ fuel argv two)⟩
      intro upkeep never
      cases never

variable (binary : Binary)

theorem rounds_promised (upkeep : Upkeep) :
    (forGroups (registerAll order) fuel (fun group => Prog.each (group.commands b) (upkeep.round binary.dir binary.name)) >>=
      fun _ => .done 0 : Action Int).All (fun trace outcome => outcome = .ok 0 ∧
        (∀ e ∈ trace, Mends b binary (some upkeep) e.call) ∧ ∀ path ∈ linkNames b binary.dir, path ∈ tendedPaths trace) := by
  have entries := each_entries rfl tendedPaths_append (order.reverse.flatMap (Group.commands b))
    (round_tended upkeep binary.dir binary.name)
  have safe := Prog.each_safe (order.reverse.flatMap (Group.commands b)) (fun cmd listed =>
    round_mends b binary upkeep ((visits_perm perm).mem_iff.mp listed))
  rw [forGroups_registered perm enough,← Prog.each_flatMap]
  refine Prog.All.bind (entries.and safe.all) ?_ ?_
  · rintro trace reason ⟨⟨never,_⟩,_⟩
    cases never
  · rintro trace value ⟨⟨_,paths⟩,good,_⟩
    refine ⟨rfl,?_,?_⟩
    · simpa using good
    · intro path listed
      have visited := (visited_links perm binary.dir path).mpr listed
      simpa [paths,List.map_eq_flatMap] using visited

theorem found_promised (upkeep : Upkeep) {rest : Option (Text × Text) → Action Int} (missing : rest none = .done (-1))
    (found : rest (some (binary.dir,binary.name)) = (forGroups (registerAll order) fuel (fun group =>
      Prog.each (group.commands b) (upkeep.round binary.dir binary.name)) >>= fun _ => .done 0)) :
    (locatePathOfBinary >>= rest).All (fun trace outcome => (∀ e ∈ trace, Finds binary e) →
      Promised b binary (some upkeep) trace outcome) := by
  refine Prog.All.bind (locatePathOfBinary_finds b binary (some upkeep)) ?_ ?_
  · rintro trace reason ⟨_,finds⟩ lawful
    rcases finds lawful with never | ⟨never,_⟩
    · cases never
    · cases never
  · rintro trace place ⟨good,finds⟩
    by_cases lawful : ∀ e ∈ trace, Finds binary e
    · rcases finds lawful with same | ⟨same,missing_⟩
      · cases same
        rw [found]
        refine (rounds_promised perm enough binary upkeep).mono ?_
        rintro later outcome ⟨ended,kept,all⟩ _
        refine ⟨?_,fun _ => .inl ⟨ended,?_⟩⟩
        · intro e member
          exact (List.mem_append.mp member).elim (good e) (kept e)
        · intro path listed
          rw [tendedPaths_append]
          exact List.mem_append_right _ (all path listed)
      · cases same
        rw [missing]
        intro _
        exact ⟨by simpa using good,fun _ => .inr ⟨rfl,by simpa using missing_⟩⟩
    · refine Prog.all_intro _ (fun later outcome both => absurd ?_ lawful)
      exact fun e member => both e (List.mem_append_left _ member)

theorem upkeep_promised (upkeep : Upkeep) :
    (upkeep.program b (registerAll order) fuel).All (fun trace outcome => (∀ e ∈ trace, Finds binary e) →
      Promised b binary (some upkeep) trace outcome) := by
  cases upkeep with
  | make => exact found_promised perm enough binary .make rfl rfl
  | clean => exact found_promised perm enough binary .clean rfl rfl

theorem runCommand_promised (argv : List Arg) (called : argv ≠ []) :
    (runCommand b (registerAll order) fuel argv).All (fun trace outcome => (∀ e ∈ trace, Finds binary e) →
      Promised b binary (requested b argv) trace outcome) := by
  obtain ⟨asked,idle⟩ := runCommand_requested perm enough argv called
  cases wanted : requested b argv with
  | some upkeep =>
    rw [asked upkeep wanted]
    exact upkeep_promised perm enough binary upkeep
  | none =>
    rcases idle wanted with ⟨⟨info,vector⟩,chosen⟩ | talking
    · refine (selected_run b order perm fuel enough argv chosen (regime_any b info.entry)).mono ?_
      rintro trace outcome ends _
      refine ⟨?_,fun some_ => absurd rfl some_⟩
      refine Contract.guaranteed_events _ ?_ (ends (fun _ _ => trivial)).1
      intro s c permitted
      cases c with
      | symlink target path => exact permitted.elim
      | unlink path => exact permitted.elim
      | _ => trivial
    · refine talking.all.mono ?_
      rintro trace outcome ⟨said,_⟩ _
      exact ⟨fun e member => talks_mends b binary none e (said e member),fun some_ => absurd rfl some_⟩

end Order

theorem mends_listed (mends : Mends b binary upkeep c) (tends : tendedPath c = some path) :
    path ∈ linkNames b binary.dir ∧ upkeep ≠ none := by
  cases c with
  | symlink target link =>
    cases tends
    obtain ⟨rfl,_,listed⟩ := mends
    exact ⟨listed,by simp⟩
  | unlink link =>
    cases tends
    obtain ⟨rfl,listed⟩ := mends
    exact ⟨listed,by simp⟩
  | _ => cases tends

section Host
variable (binary : Binary) (refuses : Nat → Bool)

theorem host_symlink (target link : Text) (disk : Disk) :
    (host binary refuses (.symlink target link) disk).2.files =
      if refuses disk.calls ∨ disk.files link ≠ none then disk.files
      else Function.update disk.files link (some (.symlink target)) := by
  simp only [host]
  split <;> rfl

theorem host_unlink (link : Text) (disk : Disk) :
    (host binary refuses (.unlink link) disk).2.files =
      if refuses disk.calls ∨ disk.files link = none ∨ disk.files link = some .directory then disk.files
      else Function.update disk.files link none := by
  simp only [host]
  split <;> rfl

theorem host_calls (c : Call) (disk : Disk) : (host binary refuses c disk).2.calls = disk.calls + 1 := by
  cases c with
  | symlink target link =>
    simp only [host]
    split <;> rfl
  | unlink link =>
    simp only [host]
    split <;> rfl
  | _ => rfl

theorem host_finds (c : Call) (disk : Disk) : Finds binary ⟨c,(host binary refuses c disk).1⟩ := by
  cases c with
  | readlink path =>
    simp only [Finds,host]
    cases refuses disk.calls with
    | false => exact .inl rfl
    | true => exact .inr rfl
  | _ => trivial

theorem host_quiet (path : Text) (c : Call) (disk : Disk) (other : tendedPath c ≠ some path) :
    (host binary refuses c disk).2.files path = disk.files path := by
  cases c with
  | symlink target link =>
    have apart : path ≠ link := fun same => other (by rw [same]; rfl)
    rw [host_symlink]
    split
    · rfl
    · exact Function.update_of_ne apart ..
  | unlink link =>
    have apart : path ≠ link := fun same => other (by rw [same]; rfl)
    rw [host_unlink]
    split
    · rfl
    · exact Function.update_of_ne apart ..
  | _ => rfl

theorem host_acts (path : Text) (c : Call) (disk : Disk) (mends : Mends b binary upkeep c) (here : tendedPath c = some path) :
    (host binary refuses c disk).2.files path =
      if refuses disk.calls then disk.files path else mended binary.name upkeep (disk.files path) := by
  cases c with
  | symlink target link =>
    cases here
    obtain ⟨rfl,rfl,_⟩ := mends
    rw [host_symlink]
    by_cases refused : refuses disk.calls = true
    · simp [refused]
    · by_cases free : disk.files path = none
      · simp [refused,free,mended,Upkeep.step]
      · obtain ⟨node,held⟩ := Option.ne_none_iff_exists'.mp free
        simp [refused,held,mended,Upkeep.step]
  | unlink link =>
    cases here
    obtain ⟨rfl,_⟩ := mends
    rw [host_unlink]
    by_cases refused : refuses disk.calls = true
    · simp [refused]
    · by_cases gone : disk.files path = none
      · simp [refused,gone,mended,Upkeep.step]
      · by_cases directory : disk.files path = some .directory
        · simp [refused,directory,mended,Upkeep.step]
        · simp [refused,gone,directory,mended,Upkeep.step]
  | _ => cases here

-- A path has seen the upkeep if one of the calls to it was not refused.
theorem exec_slot (program : Action α) (path : Text) (disk : Disk)
    (mends : ∀ e ∈ (program.exec (host binary refuses) disk).trace, Mends b binary upkeep e.call) :
    (program.exec (host binary refuses) disk).state.files path =
      if (callNumbers (tending path) disk.calls (program.exec (host binary refuses) disk).trace).any (fun n => !refuses n) then
        mended binary.name upkeep (disk.files path)
      else disk.files path := by
  induction program generalizing disk with
  | done value => rfl
  | fault reason => rfl
  | call c next ih =>
    rw [Prog.exec_call] at mends ⊢
    have rest := ih _ _ (fun e member => mends e (List.mem_cons_of_mem _ member))
    rw [host_calls] at rest
    rw [rest,callNumbers_cons]
    by_cases here : tendedPath c = some path
    · rw [host_acts binary refuses path c disk (mends ⟨c,_⟩ List.mem_cons_self) here]
      by_cases refused : refuses disk.calls = true
      · simp [tending,here,refused]
      · simp [tending,here,refused,mended_again]
    · rw [host_quiet binary refuses path c disk here]
      simp [tending,here]

end Host

-- A call that decides about a path was refused: the readlink, or a symlink or
-- unlink at the path.
def Refused (refuses : Nat → Bool) (path : Text) (first : Nat) (trace : Trace Sys) : Prop :=
  ∃ e n, (e,n) ∈ trace.zipIdx first ∧ refuses n = true ∧
    (e.call = .readlink "/proc/self/exe".toList ∨ tendedPath e.call = some path)

theorem numbered_unlocated (numbered : Numbered (host binary refuses) Disk.calls first trace) (missing : unlocated ∈ trace) :
    ∃ n, (unlocated,n) ∈ trace.zipIdx first ∧ refuses n = true := by
  obtain ⟨n,member⟩ := mem_numbered missing first
  obtain ⟨s,count,answer⟩ := numbered _ n member
  refine ⟨n,member,?_⟩
  by_contra allowed
  have found : (host binary refuses (.readlink "/proc/self/exe".toList) s).1 = some binary.path := by
    simp only [host]
    rw [count,if_neg allowed]
  cases answer.trans found

-- Where a run has not done what it was asked for, it was refused a call.
theorem numbered_decided (numbered : Numbered (host binary refuses) Disk.calls first trace)
    (promised : Promised b binary upkeep trace outcome) (asked : upkeep ≠ none) (inside : path ∈ linkNames b binary.dir) :
    (callNumbers (tending path) first trace).any (fun n => !refuses n) = true ∨ Refused refuses path first trace := by
  rcases promised.2 asked with ⟨_,tended⟩ | ⟨_,missing⟩
  · obtain ⟨e,member,here⟩ := List.mem_filterMap.mp (tended path inside)
    obtain ⟨n,at_⟩ := mem_numbered member first
    by_cases refused : refuses n = true
    · exact .inr ⟨e,n,at_,refused,.inr here⟩
    · exact .inl (List.any_eq_true.mpr ⟨n,mem_callNumbers.mpr ⟨e,at_,tending_some.mpr here⟩,by simpa using refused⟩)
  · obtain ⟨n,at_,refused⟩ := numbered_unlocated numbered missing
    exact .inr ⟨_,n,at_,refused,.inl rfl⟩

end Iotools
