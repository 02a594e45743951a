import Mathlib.Logic.Function.Basic
import Iotools.Dispatch

namespace Iotools
open Numeral Interaction

inductive Node where
  | regular (content : List UInt8)
  | symlink (target : Text)
  | directory
  deriving DecidableEq

structure Disk where
  files : Text → Option Node
  calls : Nat
  enoent : Bool

-- symlink never replaces what exists and unlink never removes a directory.
-- Apart from that any call may be refused (rights, space, a read-only medium);
-- `refuses` says which ones are, by their number.
def host (binary : Binary) (refuses : Nat → Bool) : Kernel Sys Disk := fun c disk =>
  let next := {disk with calls := disk.calls + 1}
  match c with
  | .readlink _ => (if refuses disk.calls then none else some binary.path,next)
  | .symlink target path =>
    if refuses disk.calls ∨ disk.files path ≠ none then ((-1 : Int),next)
    else ((0 : Int),{next with files := Function.update disk.files path (some (.symlink target))})
  | .unlink path =>
    if refuses disk.calls ∨ disk.files path = none ∨ disk.files path = some .directory then
      ((-1 : Int),{next with enoent := !refuses disk.calls && decide (disk.files path = none)})
    else ((0 : Int),{next with files := Function.update disk.files path none})
  | .errnoIsEnoent => (disk.enoent,next)
  | c => (c.succeeds,next)

variable {binary : Binary} {refuses : Nat → Bool}

theorem locatePathOfBinary_host (binary : Binary) (refuses : Nat → Bool) (disk : Disk) :
    ∃ later : Disk, later.files = disk.files ∧
      (locatePathOfBinary.exec (host binary refuses) disk).state = later ∧
      (locatePathOfBinary.exec (host binary refuses) disk).outcome =
        .ok (if refuses disk.calls then none else some (binary.dir,binary.name)) := by
  cases refused : refuses disk.calls with
  | true =>
    refine ⟨{disk with calls := disk.calls + 2},rfl,?_⟩
    simp [locatePathOfBinary,Prog.exec_call,host,refused]
  | false =>
    have answers : RunsFrom (host binary refuses) disk binary := by simp [RunsFrom,host,refused]
    rw [locatePathOfBinary_found answers]
    exact ⟨{disk with calls := disk.calls + 1},rfl,rfl,rfl⟩

theorem makeLink_returns (dir name : Text) (cmd : CmdInfo) (kernel : Kernel Sys σ) (s : σ) :
    ((makeLink dir name cmd).exec kernel s).outcome = .ok () := ((makeLink_symlinks dir name cmd).exec kernel s).1

theorem cleanLink_returns (dir : Text) (cmd : CmdInfo) (kernel : Kernel Sys σ) (s : σ) :
    ((cleanLink dir cmd).exec kernel s).outcome = .ok () := ((cleanLink_unlinks dir cmd).exec kernel s).1

theorem makeLink_files (dir name : Text) (cmd : CmdInfo) (disk : Disk) :
    let after := ((makeLink dir name cmd).exec (host binary refuses) disk).state
    after.files = disk.files ∨ disk.files (buildSymlinkName dir cmd) = none ∧
      after.files = Function.update disk.files (buildSymlinkName dir cmd) (some (.symlink name)) := by
  by_cases stopped : refuses (disk.calls + 1) ∨ disk.files (buildSymlinkName dir cmd) ≠ none
  · left
    simp [makeLink,Prog.exec_call,host,stopped]
  · right
    refine ⟨by simpa using (not_or.mp stopped).2,?_⟩
    simp [makeLink,Prog.exec_call,host,stopped]

theorem cleanLink_files (dir : Text) (cmd : CmdInfo) (disk : Disk) :
    let link := buildSymlinkName dir cmd
    ((cleanLink dir cmd).exec (host binary refuses) disk).state.files =
      if refuses disk.calls ∨ disk.files link = none ∨ disk.files link = some .directory then disk.files
      else Function.update disk.files link none := by
  by_cases stopped : refuses disk.calls ∨ disk.files (buildSymlinkName dir cmd) = none ∨
      disk.files (buildSymlinkName dir cmd) = some .directory
  · simp only [cleanLink,Prog.exec_call,host,stopped,Prog.call_bind,Prog.done_bind,if_true]
    cases !refuses disk.calls && decide (disk.files (buildSymlinkName dir cmd) = none) <;>
      simp [Prog.exec_call,complain,host]
  · simp [cleanLink,Prog.exec_call,host,stopped]

-- Effect of the first loop on the files: links appear where nothing was.
def Grown (names : List Text) (before after : Text → Option Node) : Prop :=
  ∀ path, after path = before path ∨
    path ∈ names ∧ before path = none ∧ ∃ target, after path = some (.symlink target)

-- Effect of the second: names that hold no directory are emptied.
def Pruned (names : List Text) (before after : Text → Option Node) : Prop :=
  ∀ path, after path = before path ∨ path ∈ names ∧ before path ≠ some .directory ∧ after path = none

theorem Grown.link (grown : Grown names before after) (member : path ∈ names) (free : after path = none)
    (target : Text) : Grown names before (Function.update after path (some (.symlink target))) := by
  intro other
  by_cases same : other = path
  · subst same
    refine .inr ⟨member,?_,target,by simp⟩
    rcases grown other with kept | ⟨_,absent,_⟩
    · rw [← kept,free]
    · exact absent
  · simpa [Function.update_of_ne same] using grown other

theorem Grown.existing (grown : Grown names before after) (held : before path = some node) :
    after path = some node := by
  rcases grown path with kept | ⟨_,absent,_⟩
  · exact kept.trans held
  · rw [absent] at held
    cases held

theorem Grown.plain (grown : Grown names before after) (absent : before path = none) :
    after path ≠ some .directory := by
  rcases grown path with kept | ⟨_,_,target,linked⟩
  · simp [kept,absent]
  · simp [linked]

theorem Pruned.unlink (pruned : Pruned names before after) (member : path ∈ names)
    (plain : after path ≠ some .directory) : Pruned names before (Function.update after path none) := by
  intro other
  by_cases same : other = path
  · subst same
    refine .inr ⟨member,?_,by simp⟩
    rcases pruned other with kept | ⟨_,notDirectory,_⟩
    · rwa [← kept]
    · exact notDirectory
  · simpa [Function.update_of_ne same] using pruned other

section Loops
variable {names : List Text} {dir : Text} (cmds : List CmdInfo)
  (inside : ∀ cmd ∈ cmds, buildSymlinkName dir cmd ∈ names)
include inside

theorem makeLinks_grown (name : Text) (disk : Disk) :
    Grown names disk.files ((Prog.each cmds (makeLink dir name)).exec (host binary refuses) disk).state.files := by
  refine Prog.each_keeps (J := fun s => Grown names disk.files s.files) cmds ?_ disk (fun _ => .inl rfl)
  intro cmd member s grown
  rcases makeLink_files dir name cmd s with kept | ⟨free,linked⟩
  · rwa [kept]
  · rw [linked]
    exact grown.link (inside cmd member) free name

theorem cleanLinks_pruned (disk : Disk) :
    Pruned names disk.files ((Prog.each cmds (cleanLink dir)).exec (host binary refuses) disk).state.files := by
  refine Prog.each_keeps (J := fun s => Pruned names disk.files s.files) cmds ?_ disk (fun _ => .inl rfl)
  intro cmd member s pruned
  rw [cleanLink_files]
  split
  case isTrue => exact pruned
  case isFalse open_ =>
    exact pruned.unlink (inside cmd member) (fun directory => open_ (.inr (.inr directory)))

end Loops

-- A round never fills a path again, so the round of a name empties it for good.
theorem cleanLinks_removes (allowed : ∀ n, refuses n = false) {cmds : List CmdInfo} {cmd : CmdInfo}
    (member : cmd ∈ cmds) (dir : Text) (disk : Disk)
    (plain : disk.files (buildSymlinkName dir cmd) ≠ some .directory) :
    ((Prog.each cmds (cleanLink dir)).exec (host binary refuses) disk).state.files (buildSymlinkName dir cmd) =
      none := by
  refine Prog.each_establishes (J := fun s => s.files (buildSymlinkName dir cmd) = none)
    (K := fun s => s.files (buildSymlinkName dir cmd) ≠ some .directory) member
    (fun other s => cleanLink_returns dir other _ s) ?_ ?_ ?_ disk plain
  · intro other s keeps
    rw [cleanLink_files]
    split
    · exact keeps
    · by_cases same : buildSymlinkName dir cmd = buildSymlinkName dir other
      · simp [same]
      · simpa [Function.update_of_ne same] using keeps
  · intro s keeps
    rw [cleanLink_files]
    split
    case isTrue stopped => simpa [allowed,keeps] using stopped
    case isFalse => simp
  · intro other s gone
    rw [cleanLink_files]
    split
    · exact gone
    · by_cases same : buildSymlinkName dir cmd = buildSymlinkName dir other
      · simp [same]
      · simpa [Function.update_of_ne same] using gone

def linkNames (b : Build) (dir : Text) : List Text := (registered b).map (buildSymlinkName dir)

section Order
variable {b : Build} {order : List Group} (perm : order.Perm (groups b)) (enough : order.length ≤ fuel)
include perm

theorem visits_inside (dir : Text) :
    ∀ cmd ∈ order.reverse.flatMap (Group.commands b), buildSymlinkName dir cmd ∈ linkNames b dir := by
  intro cmd member
  exact List.mem_map_of_mem ((visits_perm perm).mem_iff.mp member)

include enough

theorem loop_exec {body : CmdInfo → Action Unit} (kernel : Kernel Sys σ)
    (returns : ∀ cmd s, ((body cmd).exec kernel s).outcome = .ok ()) (s : σ) :
    let run := (forGroups (registerAll order) fuel (fun group => Prog.each (group.commands b) body) >>=
      fun _ => (.done 0 : Action Int)).exec kernel s
    run.outcome = .ok 0 ∧
      run.state = ((Prog.each (order.reverse.flatMap (Group.commands b)) body).exec kernel s).state := by
  rw [forGroups_registered perm enough,← Prog.each_flatMap]
  have ends := Prog.each_returns (order.reverse.flatMap (Group.commands b)) returns s
  simp [Prog.exec_bind,ends]

theorem makeCommandLinks_host (binary : Binary) (refuses : Nat → Bool) (disk : Disk) :
    let run := (makeCommandLinks b (registerAll order) fuel).exec (host binary refuses) disk
    run.outcome = .ok (if refuses disk.calls then -1 else 0) ∧
      Grown (linkNames b binary.dir) disk.files run.state.files := by
  obtain ⟨later,same,state,outcome⟩ := locatePathOfBinary_host binary refuses disk
  dsimp only
  rw [makeCommandLinks,Prog.exec_bind,outcome,state,← same]
  cases refuses disk.calls with
  | true => exact ⟨rfl,fun _ => .inl rfl⟩
  | false =>
    have loop := loop_exec perm enough (host binary refuses)
      (fun cmd s => makeLink_returns binary.dir binary.name cmd _ s) later
    refine ⟨loop.1,?_⟩
    exact loop.2 ▸ makeLinks_grown _ (visits_inside perm binary.dir) binary.name later

theorem cleanCommandLinks_host (binary : Binary) (refuses : Nat → Bool) (disk : Disk) :
    let run := (cleanCommandLinks b (registerAll order) fuel).exec (host binary refuses) disk
    run.outcome = .ok (if refuses disk.calls then -1 else 0) ∧
      Pruned (linkNames b binary.dir) disk.files run.state.files := by
  obtain ⟨later,same,state,outcome⟩ := locatePathOfBinary_host binary refuses disk
  dsimp only
  rw [cleanCommandLinks,Prog.exec_bind,outcome,state,← same]
  cases refuses disk.calls with
  | true => exact ⟨rfl,fun _ => .inl rfl⟩
  | false =>
    have loop := loop_exec perm enough (host binary refuses) (fun cmd s => cleanLink_returns binary.dir cmd _ s) later
    exact ⟨loop.1,loop.2 ▸ cleanLinks_pruned _ (visits_inside perm binary.dir) later⟩

theorem cleanCommandLinks_removes (allowed : ∀ n, refuses n = false) (disk : Disk) (path : Text)
    (member : path ∈ linkNames b binary.dir) (plain : disk.files path ≠ some .directory) :
    ((cleanCommandLinks b (registerAll order) fuel).exec (host binary refuses) disk).state.files path = none := by
  obtain ⟨cmd,registered,rfl⟩ := List.mem_map.mp member
  obtain ⟨later,same,state,outcome⟩ := locatePathOfBinary_host binary refuses disk
  rw [cleanCommandLinks,Prog.exec_bind,outcome,state,allowed]
  have loop := loop_exec perm enough (host binary refuses) (fun cmd s => cleanLink_returns binary.dir cmd _ s) later
  rw [← same] at plain
  exact loop.2 ▸ cleanLinks_removes allowed ((visits_perm perm).mem_iff.mpr registered) binary.dir later plain

end Order

-- Making the links and cleaning them again. Making alters no existing path.
-- Afterwards a path that is no command's link name is as it was; one that is
-- may have lost what it held, unless that is a directory; and when no call is
-- refused, nothing is left where nothing was.
theorem links_made_and_cleaned (b : Build) (order : List Group) (perm : order.Perm (groups b)) (fuel : Nat)
    (enough : order.length ≤ fuel) (binary : Binary) (refuses : Nat → Bool) (disk : Disk) :
    let made := (makeCommandLinks b (registerAll order) fuel).exec (host binary refuses) disk
    let cleaned := (cleanCommandLinks b (registerAll order) fuel).exec (host binary refuses) made.state
    (∀ path node, disk.files path = some node → made.state.files path = some node) ∧
    (∀ path, path ∉ linkNames b binary.dir → cleaned.state.files path = disk.files path) ∧
    (∀ path node, disk.files path = some node →
      cleaned.state.files path = some node ∨ node ≠ .directory ∧ cleaned.state.files path = none) ∧
    ((∀ n, refuses n = false) → made.outcome = .ok 0 ∧ cleaned.outcome = .ok 0 ∧
      ∀ path, disk.files path = none → cleaned.state.files path = none) := by
  intro made cleaned
  obtain ⟨makes,grown⟩ := makeCommandLinks_host perm enough binary refuses disk
  obtain ⟨cleans,pruned⟩ := cleanCommandLinks_host perm enough binary refuses made.state
  have foreign : ∀ path, path ∉ linkNames b binary.dir → cleaned.state.files path = disk.files path := by
    intro path outside
    have first := (grown path).resolve_right (fun changed => outside changed.1)
    have second := (pruned path).resolve_right (fun changed => outside changed.1)
    exact second.trans first
  refine ⟨fun path node before => grown.existing before,foreign,?_,?_⟩
  · intro path node before
    have between : made.state.files path = some node := grown.existing before
    rcases pruned path with kept | ⟨_,plain,gone⟩
    · exact .inl (kept.trans between)
    · refine .inr ⟨?_,gone⟩
      rintro rfl
      exact plain between
  · intro allowed
    refine ⟨by simpa [allowed] using makes,by simpa [allowed] using cleans,?_⟩
    intro path absent
    by_cases member : path ∈ linkNames b binary.dir
    · exact cleanCommandLinks_removes perm enough allowed made.state path member (grown.plain absent)
    · exact (foreign path member).trans absent

def packaged : Disk := ⟨Function.update (fun _ => none) "/usr/sbin/rdmsr".toList (some (.regular [0x7f,0x45,0x4c,0x46])),0,false⟩

-- Cleaning removes it, although making did not create it.
theorem clean_removes_foreign_file :
    let made := (makeCommandLinks .x86_64 (registerAll (groups .x86_64)) 9).exec (host sbin (fun _ => false)) packaged
    let cleaned := (cleanCommandLinks .x86_64 (registerAll (groups .x86_64)) 9).exec (host sbin (fun _ => false)) made.state
    packaged.files "/usr/sbin/rdmsr".toList = some (.regular [0x7f,0x45,0x4c,0x46]) ∧
      made.state.files "/usr/sbin/rdmsr".toList = some (.regular [0x7f,0x45,0x4c,0x46]) ∧
      cleaned.state.files "/usr/sbin/rdmsr".toList = none := by
  have perm : (groups .x86_64).Perm (groups .x86_64) := .refl _
  have enough : (groups .x86_64).length ≤ 9 := by decide
  have linked : "/usr/sbin/rdmsr".toList ∈ linkNames .x86_64 sbin.dir := by decide +kernel
  have held : packaged.files "/usr/sbin/rdmsr".toList = some (.regular [0x7f,0x45,0x4c,0x46]) := rfl
  obtain ⟨_,grown⟩ := makeCommandLinks_host perm enough sbin (fun _ => false) packaged
  refine ⟨held,grown.existing held,?_⟩
  refine cleanCommandLinks_removes perm enough (fun _ => rfl) _ _ linked ?_
  rw [grown.existing held]
  simp

theorem links_made_and_cleaned_sbin :
    let made := (makeCommandLinks .x86_64 (registerAll (groups .x86_64)) 9).exec (host sbin (fun _ => false)) packaged
    let cleaned := (cleanCommandLinks .x86_64 (registerAll (groups .x86_64)) 9).exec (host sbin (fun _ => false)) made.state
    cleaned.outcome = .ok 0 ∧ ∀ path, packaged.files path = none → cleaned.state.files path = none :=
  ((links_made_and_cleaned .x86_64 (groups .x86_64) (.refl _) 9 (by decide) sbin (fun _ => false) packaged).2.2.2
    (fun _ => rfl)).2

end Iotools
