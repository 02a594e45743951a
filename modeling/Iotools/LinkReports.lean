import Iotools.Links

namespace Iotools
open Numeral Interaction

-- The same host, with the refusals told by their number among the symlink and
-- unlink calls, and readlink apart.
def linking (binary : Binary) (found : Bool) (refuses : Nat → Bool) : Kernel Sys Disk := fun c disk =>
  match c with
  | .readlink _ => (if found then some binary.path else none,disk)
  | .symlink target path => host binary refuses (.symlink target path) disk
  | .unlink path => host binary refuses (.unlink path) disk
  | .errnoIsEnoent => (disk.enoent,disk)
  | c => (c.succeeds,disk)

def linkPath (dir : Text) (cmd : CmdInfo) : Text := dir ++ "/".toList ++ cmd.name.toList

def Granted (refuses : Nat → Bool) (links : List Text) (path : Text) (calls : Nat) : Prop :=
  ∃ i, links[i]? = some path ∧ refuses (calls + i) = false

variable {binary : Binary} {found : Bool} {refuses : Nat → Bool}

theorem granted_nil : ¬ Granted refuses [] path calls := by
  rintro ⟨i,there,_⟩
  simp at there

theorem granted_cons : Granted refuses (link :: links) path calls ↔
    link = path ∧ refuses calls = false ∨ Granted refuses links path (calls + 1) := by
  constructor
  · rintro ⟨i,there,granted⟩
    cases i with
    | zero => exact .inl ⟨by simpa using there,granted⟩
    | succ i => exact .inr ⟨i,by simpa using there,by rwa [Nat.add_right_comm]⟩
  · rintro (⟨same,granted⟩ | ⟨i,there,granted⟩)
    · exact ⟨0,by simpa using same,granted⟩
    · exact ⟨i + 1,by simpa using there,by rwa [Nat.add_right_comm] at granted⟩

theorem makeLink_linking (dir name : Text) (cmd : CmdInfo) (disk : Disk) :
    ((makeLink dir name cmd).exec (linking binary found refuses) disk).state =
      ⟨if refuses disk.calls ∨ disk.files (buildSymlinkName dir cmd) ≠ none then disk.files
        else Function.update disk.files (buildSymlinkName dir cmd) (some (.symlink name)),disk.calls + 1,disk.enoent⟩ := by
  by_cases stopped : refuses disk.calls ∨ disk.files (buildSymlinkName dir cmd) ≠ none
  · simp [makeLink,Prog.exec_call,linking,host,stopped]
  · simp [makeLink,Prog.exec_call,linking,host,stopped]

theorem cleanLink_linking (binary : Binary) (found : Bool) (refuses : Nat → Bool) (dir : Text) (cmd : CmdInfo) (disk : Disk) :
    let after := ((cleanLink dir cmd).exec (linking binary found refuses) disk).state
    let link := buildSymlinkName dir cmd
    after.calls = disk.calls + 1 ∧ after.files =
      if refuses disk.calls ∨ disk.files link = none ∨ disk.files link = some .directory then disk.files
      else Function.update disk.files link none := by
  by_cases stopped : refuses disk.calls ∨ disk.files (buildSymlinkName dir cmd) = none ∨
      disk.files (buildSymlinkName dir cmd) = some .directory
  · simp only [cleanLink,Prog.exec_call,linking,host,stopped,Prog.call_bind,Prog.done_bind,if_true]
    cases !refuses disk.calls && decide (disk.files (buildSymlinkName dir cmd) = none) <;>
      simp [Prog.exec_call,complain,linking]
  · simp [cleanLink,Prog.exec_call,linking,host,stopped]

-- A path is a link afterwards when it was, or when it was free and a call for it
-- went through.
theorem makeLinks_linked (dir name : Text) (cmds : List CmdInfo) (disk : Disk) (path : Text) :
    ((Prog.each cmds (makeLink dir name)).exec (linking binary found refuses) disk).state.files path =
        some (.symlink name) ↔
      disk.files path = some (.symlink name) ∨
        disk.files path = none ∧ Granted refuses (cmds.map (buildSymlinkName dir)) path disk.calls := by
  induction cmds generalizing disk with
  | nil => simp [granted_nil]
  | cons cmd rest ih =>
    rw [Prog.each_cons,Prog.exec_bind,makeLink_returns]
    dsimp only
    rw [ih,makeLink_linking,List.map_cons,granted_cons]
    generalize buildSymlinkName dir cmd = link
    dsimp only
    split
    case isTrue stopped =>
      by_cases same : link = path
      · subst same
        rcases stopped with refused | occupied
        · simp [refused]
        · simp [occupied]
      · simp [same]
    case isFalse open_ =>
      obtain ⟨granted,free⟩ := not_or.mp open_
      by_cases same : link = path
      · subst same
        have empty : disk.files link = none := by simpa using free
        simp [Bool.eq_false_iff.mpr granted,empty]
      · simp [same,Function.update_of_ne (Ne.symm same)]

-- A path is empty afterwards when it was, or when it held no directory and a
-- call for it went through.
theorem cleanLinks_gone (dir : Text) (cmds : List CmdInfo) (disk : Disk) (path : Text) :
    ((Prog.each cmds (cleanLink dir)).exec (linking binary found refuses) disk).state.files path = none ↔
      disk.files path = none ∨
        disk.files path ≠ some .directory ∧ Granted refuses (cmds.map (buildSymlinkName dir)) path disk.calls := by
  induction cmds generalizing disk with
  | nil => simp [granted_nil]
  | cons cmd rest ih =>
    rw [Prog.each_cons,Prog.exec_bind,cleanLink_returns]
    dsimp only
    obtain ⟨calls,files⟩ := cleanLink_linking binary found refuses dir cmd disk
    rw [ih,calls,files,List.map_cons,granted_cons]
    generalize buildSymlinkName dir cmd = link
    split
    case isTrue stopped =>
      by_cases same : link = path
      · subst same
        rcases stopped with refused | empty | directory
        · simp [refused]
        · simp [empty]
        · simp [directory]
      · simp [same]
    case isFalse open_ =>
      obtain ⟨granted,held⟩ := not_or.mp open_
      by_cases same : link = path
      · subst same
        simp [Bool.eq_false_iff.mpr granted,(not_or.mp held).2]
      · simp [same,Function.update_of_ne (Ne.symm same)]

theorem locatePathOfBinary_linking (binary : Binary) (found : Bool) (refuses : Nat → Bool) (disk : Disk) :
    (locatePathOfBinary.exec (linking binary found refuses) disk).state = disk ∧
    (locatePathOfBinary.exec (linking binary found refuses) disk).outcome =
      .ok (if found then some (binary.dir,binary.name) else none) := by
  cases found with
  | false => exact ⟨rfl,rfl⟩
  | true =>
    have answers : RunsFrom (linking binary true refuses) disk binary := rfl
    rw [locatePathOfBinary_found answers]
    exact ⟨rfl,rfl⟩

section Registered
variable {b : Build} {order : List Group} (distinct : order.Nodup) (enough : order.length ≤ fuel)
include distinct enough

theorem loop_runs {body : CmdInfo → Action Unit} (kernel : Kernel Sys σ)
    (returns : ∀ cmd s, ((body cmd).exec kernel s).outcome = .ok ()) (s : σ) :
    let run := (forGroups (registerAll order) fuel (fun group => Prog.each (group.commands b) body) >>=
      fun _ => (.done 0 : Action Int)).exec kernel s
    run.outcome = .ok 0 ∧
      run.state = ((Prog.each (order.reverse.flatMap (Group.commands b)) body).exec kernel s).state := by
  have start : IntrusiveList.Leads (IntrusiveList.empty : Registry).next (IntrusiveList.empty : Registry).head [] := rfl
  have leads := IntrusiveList.pushes_leads order (by simpa using distinct) start
  rw [List.append_nil] at leads
  have groups : forGroups (registerAll order) fuel (fun group => Prog.each (group.commands b) body) =
      Prog.each order.reverse (fun group => Prog.each (group.commands b) body) :=
    IntrusiveList.each_leads _ _ leads (by simpa using enough)
  rw [groups,← Prog.each_flatMap]
  have ends := Prog.each_returns (order.reverse.flatMap (Group.commands b)) returns s
  simp [Prog.exec_bind,ends]

theorem makeCommandLinks_linking (binary : Binary) (found : Bool) (refuses : Nat → Bool) (disk : Disk) (path : Text) :
    let run := (makeCommandLinks b (registerAll order) fuel).exec (linking binary found refuses) disk
    run.outcome = .ok (if found then 0 else -1) ∧ (found = true →
      (run.state.files path = some (.symlink binary.name) ↔ disk.files path = some (.symlink binary.name) ∨
        disk.files path = none ∧ Granted refuses
          ((order.reverse.flatMap (Group.commands b)).map (buildSymlinkName binary.dir)) path disk.calls)) := by
  obtain ⟨state,outcome⟩ := locatePathOfBinary_linking binary found refuses disk
  dsimp only
  rw [makeCommandLinks,Prog.exec_bind,outcome,state]
  cases found with
  | false => exact ⟨rfl,by simp⟩
  | true =>
    have loop := loop_runs (b := b) distinct enough (linking binary true refuses)
      (fun cmd s => makeLink_returns binary.dir binary.name cmd _ s) disk
    refine ⟨loop.1,fun _ => ?_⟩
    exact loop.2 ▸ makeLinks_linked binary.dir binary.name _ disk path

theorem cleanCommandLinks_linking (binary : Binary) (found : Bool) (refuses : Nat → Bool) (disk : Disk) (path : Text) :
    let run := (cleanCommandLinks b (registerAll order) fuel).exec (linking binary found refuses) disk
    run.outcome = .ok (if found then 0 else -1) ∧ (found = true →
      (run.state.files path = none ↔ disk.files path = none ∨ disk.files path ≠ some .directory ∧ Granted refuses
        ((order.reverse.flatMap (Group.commands b)).map (buildSymlinkName binary.dir)) path disk.calls)) := by
  obtain ⟨state,outcome⟩ := locatePathOfBinary_linking binary found refuses disk
  dsimp only
  rw [cleanCommandLinks,Prog.exec_bind,outcome,state]
  cases found with
  | false => exact ⟨rfl,by simp⟩
  | true =>
    have loop := loop_runs (b := b) distinct enough (linking binary true refuses)
      (fun cmd s => cleanLink_returns binary.dir cmd _ s) disk
    refine ⟨loop.1,fun _ => ?_⟩
    exact loop.2 ▸ cleanLinks_gone binary.dir _ disk path

end Registered

theorem found_status_iff {cmds : List CmdInfo} {outcome : Except Fault Int} {right by_itself : CmdInfo → Prop}
    (status : outcome = .ok (if found then 0 else -1))
    (ends : found = true → ∀ cmd ∈ cmds, (right cmd ↔ by_itself cmd)) :
    (outcome = .ok 0 → ∀ cmd ∈ cmds, right cmd) ↔ found = false ∨ ∀ cmd ∈ cmds, by_itself cmd := by
  cases found with
  | false => simp [status]
  | true =>
    have same : (∀ cmd ∈ cmds, right cmd) ↔ ∀ cmd ∈ cmds, by_itself cmd := forall₂_congr (ends rfl)
    simpa [status] using same

-- The loops' failures are printed and dropped. So the status means what it should exactly when the binary is not
-- found or every name ends up right by itself.
theorem link_status_iff (b : Build) (order : List Group) (distinct : order.Nodup) (fuel : Nat)
    (enough : order.length ≤ fuel) (binary : Binary) (found : Bool) (refuses : Nat → Bool) (disk : Disk) :
    let cmds := order.flatMap (Group.commands b)
    let links := (order.reverse.flatMap (Group.commands b)).map (buildSymlinkName binary.dir)
    let made := (makeCommandLinks b (registerAll order) fuel).exec (linking binary found refuses) disk
    let cleaned := (cleanCommandLinks b (registerAll order) fuel).exec (linking binary found refuses) disk
    ((made.outcome = .ok 0 → ∀ cmd ∈ cmds, made.state.files (linkPath binary.dir cmd) = some (.symlink binary.name)) ↔
      found = false ∨ ∀ cmd ∈ cmds, disk.files (linkPath binary.dir cmd) = some (.symlink binary.name) ∨
        disk.files (linkPath binary.dir cmd) = none ∧ Granted refuses links (linkPath binary.dir cmd) disk.calls) ∧
    ((cleaned.outcome = .ok 0 → ∀ cmd ∈ cmds, cleaned.state.files (linkPath binary.dir cmd) = none) ↔
      found = false ∨ ∀ cmd ∈ cmds, disk.files (linkPath binary.dir cmd) = none ∨
        disk.files (linkPath binary.dir cmd) ≠ some .directory ∧
          Granted refuses links (linkPath binary.dir cmd) disk.calls) := by
  intro cmds links made cleaned
  have makes (path : Text) := makeCommandLinks_linking (b := b) distinct enough binary found refuses disk path
  have cleans (path : Text) := cleanCommandLinks_linking (b := b) distinct enough binary found refuses disk path
  constructor
  · exact found_status_iff (makes []).1 (fun here cmd _ => (makes (linkPath binary.dir cmd)).2 here)
  · exact found_status_iff (cleans []).1 (fun here cmd _ => (cleans (linkPath binary.dir cmd)).2 here)

theorem buildSymlinkName_short (short : (linkPath dir cmd).length < filenameMax) :
    buildSymlinkName dir cmd = linkPath dir cmd :=
  List.take_of_length_le (Nat.le_sub_one_of_lt short)

theorem granted_all (allowed : ∀ n, refuses n = false) (member : path ∈ links) : Granted refuses links path calls := by
  obtain ⟨i,there⟩ := List.mem_iff_getElem?.mp member
  exact ⟨i,there,allowed _⟩

theorem link_status_iff_empty :
    let made := (makeCommandLinks .x86_64 (registerAll (groups .x86_64)) 9).exec (linking sbin true (fun _ => false))
      ⟨fun _ => none,0,false⟩
    made.outcome = .ok 0 → ∀ cmd ∈ (groups .x86_64).flatMap (Group.commands .x86_64),
      made.state.files (linkPath sbin.dir cmd) = some (.symlink sbin.name) := by
  have distinct : (groups .x86_64).Nodup := by decide
  have enough : (groups .x86_64).length ≤ 9 := by decide
  have short : ∀ cmd ∈ (groups .x86_64).flatMap (Group.commands .x86_64),
      (linkPath sbin.dir cmd).length < filenameMax := by decide +kernel
  have status := (link_status_iff .x86_64 (groups .x86_64) distinct 9 enough sbin true (fun _ => false)
    ⟨fun _ => none,0,false⟩).1
  refine status.mpr (.inr ?_)
  intro cmd member
  refine .inr ⟨rfl,granted_all (fun _ => rfl) ?_⟩
  rw [← buildSymlinkName_short (short cmd member)]
  apply List.mem_map_of_mem
  rw [List.mem_flatMap] at member ⊢
  simpa using member

-- Another package's rdmsr keeps its place, and both runs report success: making
-- finds it in the way, cleaning has every call refused.
theorem link_status_occupied :
    let made := (makeCommandLinks .x86_64 (registerAll (groups .x86_64)) 9).exec (linking sbin true (fun _ => false))
      packaged
    let cleaned := (cleanCommandLinks .x86_64 (registerAll (groups .x86_64)) 9).exec (linking sbin true (fun _ => true))
      packaged
    made.outcome = .ok 0 ∧ made.state.files "/usr/sbin/rdmsr".toList ≠ some (.symlink sbin.name) ∧
    cleaned.outcome = .ok 0 ∧ cleaned.state.files "/usr/sbin/rdmsr".toList ≠ none ∧
    ∃ cmd ∈ (groups .x86_64).flatMap (Group.commands .x86_64), linkPath sbin.dir cmd = "/usr/sbin/rdmsr".toList := by
  have distinct : (groups .x86_64).Nodup := by decide
  have enough : (groups .x86_64).length ≤ 9 := by decide
  have held : packaged.files "/usr/sbin/rdmsr".toList = some (.regular [0x7f,0x45,0x4c,0x46]) := rfl
  have makes := makeCommandLinks_linking (b := .x86_64) distinct enough sbin true (fun _ => false) packaged
    "/usr/sbin/rdmsr".toList
  have cleans := cleanCommandLinks_linking (b := .x86_64) distinct enough sbin true (fun _ => true) packaged
    "/usr/sbin/rdmsr".toList
  refine ⟨makes.1,mt (makes.2 rfl).mp ?_,cleans.1,mt (cleans.2 rfl).mp ?_,by decide +kernel⟩
  · rw [held]
    simp
  · rw [held]
    simp [Granted]

end Iotools
