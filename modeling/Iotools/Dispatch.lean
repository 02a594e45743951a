import Mathlib.Data.List.Perm.Basic
import Iotools.Registry
import Iotools.Traces

namespace Iotools
open Numeral Interaction

theorem registered_arch (b : Build) :
    registered b = registered .x86_64 ∨ registered b = registered .ppc64 ∨ registered b = registered .other64 := by
  obtain ⟨arch,_,_,_,_⟩ := b
  cases arch with
  | x86 => exact .inl rfl
  | powerpc => exact .inr (.inl rfl)
  | other => exact .inr (.inr rfl)

theorem groups_nodup (b : Build) : (groups b).Nodup := by
  unfold groups
  cases b.arch <;> decide

theorem names_nodup (b : Build) : ((registered b).map CmdInfo.name).Nodup := by
  rcases registered_arch b with same | same | same <;> rw [same] <;> decide +kernel

theorem splitLast_plain (text : Text) (plain : '/' ∉ text) : splitLast text = none := by
  induction text with
  | nil => rfl
  | cons c rest ih =>
    have other : c ≠ '/' := by
      rintro rfl
      exact plain (by simp)
    simp [splitLast,ih (fun member => plain (by simp [member])),other]

theorem splitLast_append (before after : Text) (plain : '/' ∉ after) :
    splitLast (before ++ '/' :: after) = some (before,after) := by
  induction before with
  | nil => simp [splitLast,splitLast_plain after plain]
  | cons c rest ih => simp [splitLast,ih]

theorem splitLast_none (unsplit : splitLast text = none) : '/' ∉ text := by
  induction text with
  | nil => simp
  | cons c rest ih =>
    unfold splitLast at unsplit
    split at unsplit
    · cases unsplit
    · rename_i tail
      split at unsplit
      · cases unsplit
      · rename_i other
        intro member
        rcases List.mem_cons.mp member with same | later
        · exact other same.symm
        · exact ih tail later

theorem splitLast_some (cut : splitLast text = some (before,after)) : text = before ++ '/' :: after ∧ '/' ∉ after := by
  induction text generalizing before with
  | nil => cases cut
  | cons c rest ih =>
    unfold splitLast at cut
    split at cut
    · rename_i tail
      cases cut
      obtain ⟨shape,plain⟩ := ih tail
      exact ⟨by rw [shape,List.cons_append],plain⟩
    · rename_i tail
      split at cut
      · rename_i slash
        cases cut
        exact ⟨by rw [slash,List.nil_append],splitLast_none tail⟩
      · cases cut

theorem find?_unique {cmds : List CmdInfo} (distinct : (cmds.map CmdInfo.name).Nodup) (cmd : Text) (info : CmdInfo) :
    cmds.find? (fun info => info.name.toList = cmd) = some info ↔ info ∈ cmds ∧ info.name.toList = cmd := by
  refine ⟨fun found => ⟨List.mem_of_find?_eq_some found,by simpa using List.find?_some found⟩,?_⟩
  rintro ⟨member,named⟩
  induction cmds with
  | nil => cases member
  | cons first rest ih =>
    obtain ⟨fresh,later⟩ := List.nodup_cons.mp distinct
    rcases List.mem_cons.mp member with rfl | tail
    · simp [named]
    · have other : first.name.toList ≠ cmd := by
        intro same
        have equal : first.name = info.name := String.toList_inj.mp (same.trans named.symm)
        exact fresh (by rw [equal]; exact List.mem_map_of_mem tail)
      simpa [other] using ih later tail

section Order
variable {b : Build} {order : List Group} (perm : order.Perm (groups b))
include perm

theorem registerAll_leads :
    IntrusiveList.Leads (registerAll order).next (registerAll order).head order.reverse := by
  have distinct : order.Nodup := perm.nodup_iff.mpr (groups_nodup b)
  have start : IntrusiveList.Leads (IntrusiveList.empty : Registry).next (IntrusiveList.empty : Registry).head [] := rfl
  have leads := IntrusiveList.pushes_leads order (by simpa using distinct) start
  rwa [List.append_nil] at leads

theorem visits_perm : (order.reverse.flatMap (Group.commands b)).Perm (registered b) :=
  ((List.reverse_perm order).trans perm).flatMap_right _

theorem visits_names : ((order.reverse.flatMap (Group.commands b)).map CmdInfo.name).Nodup :=
  ((visits_perm perm).map _).nodup_iff.mpr (names_nodup b)

theorem locateCommand_iff (enough : order.length ≤ fuel) (cmd : Text) :
    ∃ found, locateCommand b (registerAll order) fuel cmd = some found ∧
      ∀ info, found = some info ↔ info ∈ registered b ∧ info.name.toList = cmd := by
  have ends := IntrusiveList.find_leads (locateIn b cmd) (registerAll_leads perm) (by simpa using enough)
  refine ⟨_,ends,fun info => ?_⟩
  have flat : order.reverse.findSome? (locateIn b cmd) =
      (order.reverse.flatMap (Group.commands b)).find? (fun info => info.name.toList = cmd) := by
    rw [List.find?_flatMap]
    rfl
  rw [flat,← (visits_perm perm).mem_iff]
  exact find?_unique (visits_names perm) cmd info

theorem forGroups_registered (enough : order.length ≤ fuel) (body : Group → Action Unit) :
    forGroups (registerAll order) fuel body = Prog.each order.reverse body :=
  IntrusiveList.each_leads _ body (registerAll_leads perm) (by simpa using enough)

end Order

def listed (trace : Trace Sys) : List Text :=
  trace.filterMap (fun e => match e with
    | ⟨.stdout text,_⟩ => if text.take 2 = "  ".toList then some text else none
    | _ => none)

def symlinked (trace : Trace Sys) : List Text :=
  trace.filterMap (fun e => match e with
    | ⟨.symlink _ path,_⟩ => some path
    | _ => none)

def unlinked (trace : Trace Sys) : List Text :=
  trace.filterMap (fun e => match e with
    | ⟨.unlink path,_⟩ => some path
    | _ => none)

theorem each_entries {entries : Trace Sys → List β} (empty : entries [] = [])
    (append : ∀ left right, entries (left ++ right) = entries left ++ entries right) {body : α → Action Unit}
    {f : α → List β} (xs : List α)
    (round : ∀ x, (body x).All (fun trace outcome => outcome = .ok () ∧ entries trace = f x)) :
    (Prog.each xs body).All (fun trace outcome => outcome = .ok () ∧ entries trace = xs.flatMap f) := by
  induction xs with
  | nil => exact ⟨rfl,empty⟩
  | cons x xs ih =>
    refine Prog.All.bind (round x) ?_ ?_
    · rintro trace reason ⟨never,_⟩
      cases never
    · rintro trace value ⟨_,single⟩
      refine ih.mono (fun later outcome rest => ⟨rest.1,?_⟩)
      simp [append,single,rest.2]

theorem listed_append (left right : Trace Sys) : listed (left ++ right) = listed left ++ listed right :=
  List.filterMap_append
theorem symlinked_append (left right : Trace Sys) : symlinked (left ++ right) = symlinked left ++ symlinked right :=
  List.filterMap_append
theorem unlinked_append (left right : Trace Sys) : unlinked (left ++ right) = unlinked left ++ unlinked right :=
  List.filterMap_append

theorem makeLink_symlinks (pathToBin binName : Text) (cmd : CmdInfo) :
    (makeLink pathToBin binName cmd).All (fun trace outcome =>
      outcome = .ok () ∧ symlinked trace = [buildSymlinkName pathToBin cmd]) := by
  simp only [makeLink,Prog.call_bind,Prog.done_bind,Prog.all_call]
  intro _ (result : Int)
  split
  · intro _
    exact ⟨rfl,rfl⟩
  · exact ⟨rfl,rfl⟩

theorem cleanLink_unlinks (pathToBin : Text) (cmd : CmdInfo) :
    (cleanLink pathToBin cmd).All (fun trace outcome =>
      outcome = .ok () ∧ unlinked trace = [buildSymlinkName pathToBin cmd]) := by
  simp only [cleanLink,Prog.call_bind,Prog.done_bind,Prog.all_call]
  intro (result : Int)
  split
  · simp only [Prog.all_call]
    intro (missing : Bool)
    cases missing with
    | true => exact ⟨rfl,rfl⟩
    | false =>
      intro _ _
      exact ⟨rfl,rfl⟩
  · exact ⟨rfl,rfl⟩

-- Where /proc/self/exe points: a path with a slash that fits the static buffer.
structure Binary where
  dir : Text
  name : Text
  plain : '/' ∉ name
  fits : (dir ++ '/' :: name).length < filenameMax

def Binary.path (binary : Binary) : Text := binary.dir ++ '/' :: binary.name

theorem Binary.parts (binary : Binary) : splitLast binary.path = some (binary.dir,binary.name) :=
  splitLast_append _ _ binary.plain

def RunsFrom (kernel : Kernel Sys σ) (s : σ) (binary : Binary) : Prop :=
  (kernel (.readlink "/proc/self/exe".toList) s).1 = some binary.path

theorem locatePathOfBinary_found {kernel : Kernel Sys σ} (found : RunsFrom kernel s binary) :
    locatePathOfBinary.exec kernel s =
      ⟨[⟨.readlink "/proc/self/exe".toList,some binary.path⟩],.ok (some (binary.dir,binary.name)),
        (kernel (.readlink "/proc/self/exe".toList) s).2⟩ := by
  have fits : ¬ filenameMax ≤ binary.path.length := Nat.not_le.mpr binary.fits
  have answers : kernel (.readlink "/proc/self/exe".toList) s =
      (some binary.path,(kernel (.readlink "/proc/self/exe".toList) s).2) := Prod.ext found rfl
  simp only [locatePathOfBinary,Prog.call_bind,Prog.done_bind]
  rw [Prog.exec_step answers]
  simp only [fits,if_false,binary.parts]
  rfl

theorem locatePathOfBinary_some {kernel : Kernel Sys σ}
    (located : (locatePathOfBinary.exec kernel s).outcome = .ok (some place)) : ∃ binary, RunsFrom kernel s binary := by
  simp only [locatePathOfBinary,Prog.call_bind,Prog.done_bind,Prog.exec_call] at located
  unfold RunsFrom
  revert located
  generalize (kernel (.readlink "/proc/self/exe".toList) s).1 = answer
  intro located
  cases answer with
  | none => cases located
  | some target =>
    dsimp only at located
    split at located
    · cases located
    · rename_i fits
      cases parts : splitLast target with
      | none =>
        rw [parts] at located
        cases located
      | some pair =>
        obtain ⟨shape,plain⟩ := splitLast_some parts
        exact ⟨⟨pair.1,pair.2,plain,by rw [← shape]; omega⟩,congrArg some shape⟩

theorem upkeep_visits {entries : Trace Sys → List β} (empty : entries [] = [])
    (append : ∀ left right, entries (left ++ right) = entries left ++ entries right)
    (unseen : ∀ answer, entries [⟨.readlink "/proc/self/exe".toList,answer⟩] = [])
    {body : Text → Text → CmdInfo → Action Unit} {entry : Text → CmdInfo → β} {cmds : List CmdInfo}
    (round : ∀ dir name cmd, (body dir name cmd).All (fun trace outcome => outcome = .ok () ∧ entries trace = [entry dir cmd]))
    {next : Option (Text × Text) → Action Int} (missing : next none = .done (-1))
    (present : ∀ dir name, next (some (dir,name)) = Prog.each cmds (body dir name) >>= fun _ => .done 0)
    (kernel : Kernel Sys σ) (s : σ) :
    let run := (locatePathOfBinary >>= next).exec kernel s
    (run.outcome = .ok 0 ↔ ∃ binary, RunsFrom kernel s binary) ∧ ∀ binary, RunsFrom kernel s binary →
      entries run.trace = cmds.map (entry binary.dir) := by
  have visited (binary : Binary) (found : RunsFrom kernel s binary) :
      ((locatePathOfBinary >>= next).exec kernel s).outcome = .ok 0 ∧
        entries ((locatePathOfBinary >>= next).exec kernel s).trace = cmds.map (entry binary.dir) := by
    have loop := (each_entries empty append cmds (round binary.dir binary.name)).exec kernel
      (kernel (.readlink "/proc/self/exe".toList) s).2
    rw [Prog.exec_seq (locatePathOfBinary_found found),present,Prog.exec_bind,loop.1]
    refine ⟨rfl,?_⟩
    simp only [Run.prepend_trace,Prog.exec_done,List.append_nil,append,unseen,loop.2,List.nil_append]
    exact List.map_eq_flatMap.symm
  refine ⟨⟨fun returned => ?_,fun ⟨binary,found⟩ => (visited binary found).1⟩,fun binary found => (visited binary found).2⟩
  rw [Prog.exec_bind] at returned
  cases located : (locatePathOfBinary.exec kernel s).outcome with
  | error reason =>
    rw [located] at returned
    cases returned
  | ok place =>
    cases place with
    | none =>
      rw [located] at returned
      simp [missing] at returned
    | some place => exact locatePathOfBinary_some located

theorem groupLine_unlisted (group : Group) : (groupLine group).take 2 ≠ "  ".toList := by
  cases group <;> decide +kernel

theorem commandLine_lists (cmd : CmdInfo) :
    (ask (.stdout (commandLine cmd)) : Action Unit).All (fun trace outcome =>
      outcome = .ok () ∧ listed trace = [commandLine cmd]) := by
  have indented : (commandLine cmd).take 2 = "  ".toList := by simp [commandLine]
  intro _
  refine ⟨rfl,?_⟩
  simp [listed,indented]

theorem listGroup_lists (b : Build) (group : Group) :
    (do ask (.stdout (groupLine group))
        Prog.each (group.commands b) (fun cmd => ask (.stdout (commandLine cmd))) : Action Unit).All
      (fun trace outcome => outcome = .ok () ∧ listed trace = (group.commands b).map commandLine) := by
  have lines := each_entries rfl listed_append (group.commands b) commandLine_lists
  have header : listed [⟨.stdout (groupLine group),()⟩] = [] := by
    simpa [listed] using groupLine_unlisted group
  intro _
  refine lines.mono (fun trace outcome rest => ⟨rest.1,?_⟩)
  rw [← List.singleton_append,listed_append,header,rest.2,List.map_eq_flatMap,List.nil_append]

section Order
variable {b : Build} {order : List Group} (perm : order.Perm (groups b)) (enough : order.length ≤ fuel)
include perm enough

theorem makeCommandLinks_visits (kernel : Kernel Sys σ) (s : σ) :
    let run := (makeCommandLinks b (registerAll order) fuel).exec kernel s
    (run.outcome = .ok 0 ↔ ∃ binary, RunsFrom kernel s binary) ∧ ∀ binary, RunsFrom kernel s binary →
      symlinked run.trace = (order.reverse.flatMap (Group.commands b)).map (buildSymlinkName binary.dir) := by
  refine upkeep_visits rfl symlinked_append (fun _ => rfl) makeLink_symlinks rfl (fun dir name => ?_) kernel s
  simp only [forGroups_registered perm enough,← Prog.each_flatMap]
  rfl

theorem cleanCommandLinks_visits (kernel : Kernel Sys σ) (s : σ) :
    let run := (cleanCommandLinks b (registerAll order) fuel).exec kernel s
    (run.outcome = .ok 0 ↔ ∃ binary, RunsFrom kernel s binary) ∧ ∀ binary, RunsFrom kernel s binary →
      unlinked run.trace = (order.reverse.flatMap (Group.commands b)).map (buildSymlinkName binary.dir) := by
  refine upkeep_visits rfl unlinked_append (fun _ => rfl) (fun dir _ => cleanLink_unlinks dir) rfl (fun dir name => ?_) kernel s
  simp only [forGroups_registered perm enough,← Prog.each_flatMap]
  rfl

theorem listCommands_visits : (listCommands b (registerAll order) fuel).All (fun trace outcome =>
    outcome = .ok 0 ∧ listed trace = (order.reverse.flatMap (Group.commands b)).map commandLine) := by
  have loop := each_entries rfl listed_append order.reverse (listGroup_lists b)
  simp only [listCommands,forGroups_registered perm enough]
  refine Prog.All.bind loop (by simp) ?_
  rintro later value ⟨_,entries⟩
  exact ⟨rfl,by simp [entries,List.map_flatMap]⟩

end Order

-- Dispatch and the loops over all commands do not depend on the order in which
-- the constructors ran.
theorem dispatch_order_independent (b : Build) (order : List Group) (perm : order.Perm (groups b)) (fuel : Nat)
    (enough : order.length ≤ fuel) :
    (∀ cmd, ∃ found, locateCommand b (registerAll order) fuel cmd = some found ∧
      ∀ info, found = some info ↔ info ∈ registered b ∧ info.name.toList = cmd) ∧
    ∃ visits : List CmdInfo, visits.Perm (registered b) ∧ visits.Nodup ∧
      ∀ (σ : Type) (kernel : Kernel Sys σ) (s : σ),
        let list := (listCommands b (registerAll order) fuel).exec kernel s
        let make := (makeCommandLinks b (registerAll order) fuel).exec kernel s
        let clean := (cleanCommandLinks b (registerAll order) fuel).exec kernel s
        (list.outcome = .ok 0 ∧ listed list.trace = visits.map commandLine) ∧
        ((make.outcome = .ok 0 ↔ ∃ binary, RunsFrom kernel s binary) ∧
          ∀ binary, RunsFrom kernel s binary → symlinked make.trace = visits.map (buildSymlinkName binary.dir)) ∧
        ((clean.outcome = .ok 0 ↔ ∃ binary, RunsFrom kernel s binary) ∧
          ∀ binary, RunsFrom kernel s binary → unlinked clean.trace = visits.map (buildSymlinkName binary.dir)) := by
  refine ⟨locateCommand_iff perm enough,_,visits_perm perm,(visits_names perm).of_map,fun σ kernel s => ⟨?_,?_,?_⟩⟩
  · exact (listCommands_visits perm enough).exec kernel s
  · exact makeCommandLinks_visits perm enough kernel s
  · exact cleanCommandLinks_visits perm enough kernel s

def sbin : Binary := ⟨"/usr/sbin".toList,"iotools".toList,by decide,by decide⟩

def installed : Kernel Sys Unit := fun c s =>
  match c with
  | .readlink _ => (some sbin.path,s)
  | c => (c.succeeds,s)

theorem dispatch_order_independent_msr_first :
    let order : List Group := [.msr,.logic,.cmos,.smbus,.io,.mem,.misc,.pci,.mmio]
    let make := (makeCommandLinks .x86_64 (registerAll order) 9).exec installed ()
    let clean := (cleanCommandLinks .x86_64 (registerAll order) 9).exec installed ()
    (∃ found, locateCommand .x86_64 (registerAll order) 9 "rdmsr".toList = some found ∧
      ∀ info, found = some info ↔ info ∈ registered .x86_64 ∧ info.name.toList = "rdmsr".toList) ∧
    make.outcome = .ok 0 ∧ clean.outcome = .ok 0 ∧
    ∃ visits : List CmdInfo, visits.Perm (registered .x86_64) ∧
      listed ((listCommands .x86_64 (registerAll order) 9).exec installed ()).trace = visits.map commandLine ∧
      symlinked make.trace = visits.map (buildSymlinkName "/usr/sbin".toList) ∧
      unlinked clean.trace = visits.map (buildSymlinkName "/usr/sbin".toList) := by
  obtain ⟨locates,visits,all,_,visit⟩ := dispatch_order_independent .x86_64
    [.msr,.logic,.cmos,.smbus,.io,.mem,.misc,.pci,.mmio] (by decide) 9 (by decide)
  have found : RunsFrom installed () sbin := rfl
  obtain ⟨list,make,clean⟩ := visit Unit installed ()
  exact ⟨locates _,make.1.mpr ⟨sbin,found⟩,clean.1.mpr ⟨sbin,found⟩,visits,all,list.2,make.2 sbin found,clean.2 sbin found⟩

end Iotools
