import Iotools.Dispatch

namespace Iotools
open Numeral Interaction

theorem names_plain (member : info ∈ registered b) : '/' ∉ info.name.toList := by
  have every : ∀ info ∈ everyCmd, '/' ∉ info.name.toList := by decide +kernel
  exact every info (mem_everyCmd member)

theorem commandName_plain (text : Text) (plain : '/' ∉ text) : commandName text = text := by
  simp [commandName,splitLast_plain text plain]

theorem commandName_link (dir name : Text) (plain : '/' ∉ name) (closed : dir = [] ∨ dir.getLast? = some '/') :
    commandName (dir ++ name) = name := by
  cases closed with
  | inl empty =>
    subst empty
    exact commandName_plain name plain
  | inr slash =>
    obtain ⟨before,rfl⟩ := List.getLast?_eq_some_iff.mp slash
    simp [commandName,splitLast_append before name plain]

section Order
variable {b : Build} {order : List Group} (perm : order.Perm (groups b)) (enough : order.length ≤ fuel)
include perm enough

theorem locateCommand_registered (member : info ∈ registered b) :
    locateCommand b (registerAll order) fuel info.name.toList = some (some info) := by
  obtain ⟨found,ends,exactly⟩ := locateCommand_iff perm enough info.name.toList
  rw [ends,(exactly info).mpr ⟨member,rfl⟩]

theorem locateCommand_absent (cmd : Text) (absent : ∀ info ∈ registered b, info.name.toList ≠ cmd) :
    locateCommand b (registerAll order) fuel cmd = some none := by
  obtain ⟨found,ends,exactly⟩ := locateCommand_iff perm enough cmd
  cases found with
  | none => exact ends
  | some info =>
    obtain ⟨member,named⟩ := (exactly info).mp rfl
    exact absurd named (absent info member)

theorem runCommand_direct (member : info ∈ registered b) (program called : Arg) (args : List Arg)
    (named : called.text = info.name.toList) :
    runCommand b (registerAll order) fuel (program :: called :: args) = runInfo b fuel (called :: args) info := by
  have found := locateCommand_registered perm enough member
  rw [← named] at found
  simp [runCommand,argAt,found,located]

theorem runCommand_named (first : Arg) (args : List Arg)
    (free : ∀ arg, args.head? = some arg → ∀ info ∈ registered b, info.name.toList ≠ arg.text)
    (named : locateCommand b (registerAll order) fuel (commandName first.text) = some (some info)) :
    runCommand b (registerAll order) fuel (first :: args) = runInfo b fuel (first :: args) info := by
  cases args with
  | nil => simp [runCommand,argAt,named,located]
  | cons arg rest =>
    have none_ := locateCommand_absent perm enough arg.text (free arg rfl)
    simp [runCommand,argAt,none_,named,located]

theorem runCommand_unnamed (first : Arg) (args : List Arg)
    (free : ∀ arg, args.head? = some arg → ∀ info ∈ registered b, info.name.toList ≠ arg.text)
    (unnamed : ∀ info ∈ registered b, info.name.toList ≠ commandName first.text) :
    runCommand b (registerAll order) fuel (first :: args) = iotoolsFallback b (registerAll order) fuel (first :: args) := by
  have none_ := locateCommand_absent perm enough _ unnamed
  cases args with
  | nil => simp [runCommand,argAt,none_,located]
  | cons arg rest =>
    have first_ := locateCommand_absent perm enough arg.text (free arg rfl)
    simp [runCommand,argAt,first_,none_,located]

end Order

-- The argument-count check looks at argv[0] only to print the usage: vectors that
-- fit are checked by the same program, and others are refused.
theorem checkPrereqs_alike (b : Build) (left right : Arg) (args : List Arg) (admitted : Admits params (left :: args)) :
    checkPrereqs b (left :: args) params = checkPrereqs b (right :: args) params := by
  cases params with
  | none => rfl
  | some p =>
    have fits := admitted p rfl
    rw [List.length_cons] at fits
    have counted (argv : Arg) : ¬ ((argv :: args).length < p.minArgs ∨ p.maxArgs < (argv :: args).length) := by
      rw [List.length_cons]
      omega
    simp only [checkPrereqs]
    rw [if_neg (counted left),if_neg (counted right)]

theorem checkPrereqs_refused (b : Build) (first : Arg) (args : List Arg) (refused : ¬ Admits params (first :: args))
    (kernel : Kernel Sys σ) (s : σ) : ((checkPrereqs b (first :: args) params).exec kernel s).outcome = .ok (-1) := by
  cases params with
  | none => exact absurd (fun _ other => by cases other) refused
  | some p =>
    have outside : (first :: args).length < p.minArgs ∨ p.maxArgs < (first :: args).length := by
      by_contra inside
      rw [not_or] at inside
      refine refused (fun q same => ?_)
      cases same
      omega
    simp only [checkPrereqs]
    rw [if_pos outside]
    rfl

-- What the fallback does besides talking: it looks for its own binary and makes
-- or removes links. No command's device call is among it.
def Housekeeping (e : Event Sys) : Prop :=
  match e.call with
  | .stdout _ | .stderr _ | .strerror | .errnoIsEnoent | .readlink _ | .symlink .. | .unlink _ => True
  | _ => False

abbrev Keeps (program : Action α) : Prop := program.Safe Housekeeping (fun _ => True)

theorem argAt_keeps (argv : List Arg) (index : Nat) : Keeps (argAt argv index) := by
  unfold argAt
  split <;> trivial

theorem makeLink_keeps (dir name : Text) (cmd : CmdInfo) : Keeps (makeLink dir name cmd) := by
  simp only [makeLink,Prog.call_bind,Prog.done_bind]
  intro _
  refine ⟨trivial,fun (result : Int) => ⟨trivial,?_⟩⟩
  dsimp only
  split
  · exact fun _ => ⟨trivial,trivial⟩
  · trivial

theorem cleanLink_keeps (dir : Text) (cmd : CmdInfo) : Keeps (cleanLink dir cmd) := by
  simp only [cleanLink,Prog.call_bind,Prog.done_bind]
  intro (result : Int)
  refine ⟨trivial,?_⟩
  dsimp only
  split
  · intro (missing : Bool)
    refine ⟨trivial,?_⟩
    cases missing with
    | true => trivial
    | false => exact fun _ => ⟨trivial,fun _ => ⟨trivial,trivial⟩⟩
  · trivial

theorem locatePathOfBinary_keeps : Keeps locatePathOfBinary := by
  simp only [locatePathOfBinary,Prog.call_bind,Prog.done_bind]
  intro target
  refine ⟨trivial,?_⟩
  cases target with
  | none => exact fun _ => ⟨trivial,trivial⟩
  | some target =>
    dsimp only
    split
    · trivial
    · split <;> trivial

section Order
variable {b : Build} {order : List Group} (perm : order.Perm (groups b)) (enough : order.length ≤ fuel)
include perm enough

theorem forGroups_keeps {body : Group → Action Unit} (round : ∀ group, Keeps (body group)) :
    Keeps (forGroups (registerAll order) fuel body) := by
  rw [forGroups_registered perm enough]
  exact Prog.each_safe _ (fun group _ => round group)

theorem makeCommandLinks_keeps : Keeps (makeCommandLinks b (registerAll order) fuel) := by
  apply locatePathOfBinary_keeps.bind
  intro found
  cases found with
  | none => trivial
  | some place =>
    apply (forGroups_keeps perm enough _).bind
    · intro _
      trivial
    · intro group
      exact Prog.each_safe _ (fun cmd _ => makeLink_keeps place.1 place.2 cmd)

theorem cleanCommandLinks_keeps : Keeps (cleanCommandLinks b (registerAll order) fuel) := by
  apply locatePathOfBinary_keeps.bind
  intro found
  cases found with
  | none => trivial
  | some place =>
    apply (forGroups_keeps perm enough _).bind
    · intro _
      trivial
    · intro group
      exact Prog.each_safe _ (fun cmd _ => cleanLink_keeps place.1 cmd)

theorem listCommands_keeps : Keeps (listCommands b (registerAll order) fuel) := by
  apply (forGroups_keeps perm enough _).bind
  · intro _
    trivial
  · intro group _
    refine ⟨trivial,Prog.each_safe _ (fun cmd _ => ?_)⟩
    exact fun _ => ⟨trivial,trivial⟩

theorem iotoolsFallback_keeps (argv : List Arg) : Keeps (iotoolsFallback b (registerAll order) fuel argv) := by
  unfold iotoolsFallback
  split
  · apply (argAt_keeps argv 0).bind
    intro name _
    exact ⟨trivial,trivial⟩
  · apply (argAt_keeps argv 1).bind
    intro command
    split
    · apply (argAt_keeps argv 0).bind
      intro name _
      exact ⟨trivial,trivial⟩
    · split
      · exact makeCommandLinks_keeps perm enough
      · split
        · exact cleanCommandLinks_keeps perm enough
        · split
          · exact listCommands_keeps perm enough
          · split
            · apply (argAt_keeps argv 0).bind
              intro name _
              exact ⟨trivial,trivial⟩
            · intro _
              refine ⟨trivial,(argAt_keeps argv 0).bind ?_⟩
              intro name _
              exact ⟨trivial,trivial⟩

end Order

-- Both ways to call a command check and call the same table entry, with vectors
-- that differ in argv[0] only; anything else is left to the fallback, which gets
-- the vector as it is and enters no command.
theorem invocations_agree (b : Build) (order : List Group) (perm : order.Perm (groups b)) (fuel : Nat)
    (enough : order.length ≤ fuel) :
    (∀ info ∈ registered b, ∀ (program called link : Arg) (dir : Text) (args : List Arg),
      called.text = info.name.toList → link.text = dir ++ info.name.toList →
      (dir = [] ∨ dir.getLast? = some '/') →
      (∀ arg, args.head? = some arg → ∀ other ∈ registered b, other.name.toList ≠ arg.text) →
      runCommand b (registerAll order) fuel (program :: called :: args) = (do
        if (← checkPrereqs b (called :: args) info.params) < 0 then return -1
        else info.entry.call b fuel (called :: args) info) ∧
      runCommand b (registerAll order) fuel (link :: args) = (do
        if (← checkPrereqs b (link :: args) info.params) < 0 then return -1
        else info.entry.call b fuel (link :: args) info) ∧
      (Admits info.params (called :: args) →
        checkPrereqs b (called :: args) info.params = checkPrereqs b (link :: args) info.params) ∧
      (¬ Admits info.params (called :: args) → ∀ (σ : Type) (kernel : Kernel Sys σ) (s : σ),
        ((checkPrereqs b (called :: args) info.params).exec kernel s).outcome = .ok (-1) ∧
        ((checkPrereqs b (link :: args) info.params).exec kernel s).outcome = .ok (-1))) ∧
    (∀ (first : Arg) (args : List Arg),
      (∀ arg, args.head? = some arg → ∀ info ∈ registered b, info.name.toList ≠ arg.text) →
      (∀ info ∈ registered b, info.name.toList ≠ commandName first.text) →
      runCommand b (registerAll order) fuel (first :: args) =
        iotoolsFallback b (registerAll order) fuel (first :: args) ∧
      Keeps (iotoolsFallback b (registerAll order) fuel (first :: args))) := by
  constructor
  · intro info member program called link dir args direct linked closed free
    have named : locateCommand b (registerAll order) fuel (commandName link.text) = some (some info) := by
      rw [linked,commandName_link dir _ (names_plain member) closed]
      exact locateCommand_registered perm enough member
    refine ⟨runCommand_direct perm enough member program called args direct,
      runCommand_named perm enough link args free named,checkPrereqs_alike b called link args,?_⟩
    intro refused σ kernel s
    exact ⟨checkPrereqs_refused b called args refused kernel s,checkPrereqs_refused b link args refused kernel s⟩
  · intro first args free unnamed
    exact ⟨runCommand_unnamed perm enough first args free unnamed,iotoolsFallback_keeps perm enough _⟩

theorem invocations_agree_rdmsr :
    let info := makeCmdWithParams "rdmsr" .rdMsr .null (fixedArgs 3 "<cpu> <msr>" 0)
    let registry := registerAll (groups .x86_64)
    let enter := fun argv : List Arg => (do
      if (← checkPrereqs .x86_64 argv info.params) < 0 then return -1 else rdMsr .x86_64 argv info : Action Int)
    runCommand .x86_64 registry 9 (["iotools","rdmsr","0","0x10"].map Arg.of) = enter (["rdmsr","0","0x10"].map Arg.of) ∧
    runCommand .x86_64 registry 9 (["/usr/sbin/rdmsr","0","0x10"].map Arg.of) =
      enter (["/usr/sbin/rdmsr","0","0x10"].map Arg.of) ∧
    checkPrereqs .x86_64 (["rdmsr","0","0x10"].map Arg.of) info.params =
      checkPrereqs .x86_64 (["/usr/sbin/rdmsr","0","0x10"].map Arg.of) info.params ∧
    runCommand .x86_64 registry 9 (["./iotools","--help"].map Arg.of) =
      iotoolsFallback .x86_64 registry 9 (["./iotools","--help"].map Arg.of) := by
  have agree := invocations_agree .x86_64 (groups .x86_64) (.refl _) 9 (by decide)
  have absent : ∀ other ∈ registered .x86_64, other.name.toList ≠ "0".toList := by decide +kernel
  have both := agree.1 (makeCmdWithParams "rdmsr" .rdMsr .null (fixedArgs 3 "<cpu> <msr>" 0)) (by decide +kernel)
    (Arg.of "iotools") (Arg.of "rdmsr") (Arg.of "/usr/sbin/rdmsr") "/usr/sbin/".toList (["0","0x10"].map Arg.of)
    (by decide +kernel) (by decide +kernel) (by decide +kernel) (by rintro _ ⟨⟩; exact absent)
  have other := agree.2 (Arg.of "./iotools") [Arg.of "--help"] (by rintro _ ⟨⟩; decide +kernel) (by decide +kernel)
  exact ⟨both.1,both.2.1,both.2.2.1 (by decide),other.1⟩

end Iotools
