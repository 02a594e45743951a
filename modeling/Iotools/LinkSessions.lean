import Iotools.LinkUpkeep

namespace Iotools
open Numeral Interaction

-- A run that was asked for upkeep: the number of its first call, and its trace.
structure Tour where
  upkeep : Upkeep
  first : Nat
  trace : Trace Sys

namespace Tour
variable (refuses : Nat → Bool) (path : Text) (tour : Tour)

def granted : Bool := (callNumbers (tending path) tour.first tour.trace).any (fun n => !refuses n)

def refused : Prop := Refused refuses path tour.first tour.trace

end Tour

def tours (b : Build) (registry : Registry) (fuel : Nat) (kernel : Kernel Sys Disk) : List (List Arg) → Disk → List Tour
  | [],_ => []
  | argv :: rest,disk =>
    let run := (runCommand b registry fuel argv).exec kernel disk
    ((requested b argv).map (fun upkeep => ⟨upkeep,disk.calls,run.trace⟩)).toList ++ tours b registry fuel kernel rest run.state

variable (binary : Binary) (refuses : Nat → Bool)

theorem tours_upkeep (b : Build) (registry : Registry) (fuel : Nat) (kernel : Kernel Sys Disk) (lines : List (List Arg))
    (disk : Disk) : (tours b registry fuel kernel lines disk).map Tour.upkeep = lines.filterMap (requested b) := by
  induction lines generalizing disk with
  | nil => rfl
  | cons argv rest ih =>
    rw [tours,List.map_append,ih]
    cases asked : requested b argv with
    | none => simp [asked]
    | some upkeep => simp [asked]

section Order
variable {b : Build} {order : List Group} (perm : order.Perm (groups b)) (enough : order.length ≤ fuel)
include perm enough

theorem runCommand_slot (argv : List Arg) (called : argv ≠ []) (disk : Disk) (path : Text) :
    let run := (runCommand b (registerAll order) fuel argv).exec (host binary refuses) disk
    let granted := (callNumbers (tending path) disk.calls run.trace).any (fun n => !refuses n)
    (run.state.files path =
      if granted = true then mended binary.name (requested b argv) (disk.files path) else disk.files path) ∧
    (granted = true → path ∈ linkNames b binary.dir) ∧
    (requested b argv ≠ none → path ∈ linkNames b binary.dir → granted = true ∨ Refused refuses path disk.calls run.trace) := by
  intro run granted
  have promised := (runCommand_promised perm enough binary argv called).exec (host binary refuses) disk
    (Prog.exec_events (fun c s => host_finds binary refuses c s) disk)
  refine ⟨exec_slot binary refuses _ path disk promised.1,?_,numbered_decided (Prog.exec_numbered (host_calls binary refuses) _ disk) promised⟩
  intro some_
  obtain ⟨n,member,_⟩ := List.any_eq_true.mp some_
  obtain ⟨e,at_,here⟩ := mem_callNumbers.mp member
  exact (mends_listed (promised.1 e (List.fst_mem_of_mem_zipIdx at_)) (tending_some.mp here)).1

theorem tours_slot (lines : List (List Arg)) (called : ∀ argv ∈ lines, argv ≠ []) (disk : Disk) (path : Text) :
    let after := Prog.session (host binary refuses) (lines.map (runCommand b (registerAll order) fuel)) disk
    let asked := tours b (registerAll order) fuel (host binary refuses) lines disk
    (∀ tour ∈ asked, (tour.granted refuses path = true → path ∈ linkNames b binary.dir) ∧
      (path ∈ linkNames b binary.dir → tour.granted refuses path = true ∨ tour.refused refuses path)) ∧
    after.files path = ((asked.filter (Tour.granted refuses path)).map Tour.upkeep).foldl
      (fun slot upkeep => upkeep.step binary.name slot) (disk.files path) := by
  induction lines generalizing disk with
  | nil => exact ⟨by simp [tours],rfl⟩
  | cons argv rest ih =>
    obtain ⟨slot,inside,decided⟩ := runCommand_slot binary refuses perm enough argv (called argv (by simp)) disk path
    obtain ⟨later,files⟩ := ih (fun other member => called other (by simp [member]))
      ((runCommand b (registerAll order) fuel argv).exec (host binary refuses) disk).state
    dsimp only
    rw [List.map_cons,Prog.session_cons,files,tours]
    cases asked : requested b argv with
    | none =>
      rw [asked] at slot
      refine ⟨by simpa using later,?_⟩
      rw [slot]
      simp [mended]
    | some upkeep =>
      rw [asked] at slot decided
      constructor
      · intro tour member
        rcases List.mem_append.mp member with first | rest
        · cases List.mem_singleton.mp first
          exact ⟨inside,decided (by simp)⟩
        · exact later tour rest
      · rw [slot]
        by_cases granted : (callNumbers (tending path) disk.calls ((runCommand b (registerAll order) fuel argv).exec
            (host binary refuses) disk).trace).any (fun n => !refuses n) = true
        · simp [Tour.granted,granted,mended]
        · simp [Tour.granted,granted]

end Order

-- No file but the registered names beside the binary ever changes. Each of these
-- has gone through the requests in their order; one is left out only where its run
-- was refused the readlink, or every call to that name.
theorem link_session (b : Build) (order : List Group) (perm : order.Perm (groups b)) (fuel : Nat) (enough : order.length ≤ fuel)
    (lines : List (List Arg)) (called : ∀ argv ∈ lines, argv ≠ []) (disk : Disk) (path : Text) :
    let after := Prog.session (host binary refuses) (lines.map (runCommand b (registerAll order) fuel)) disk
    let asked := tours b (registerAll order) fuel (host binary refuses) lines disk
    let done := asked.filter (Tour.granted refuses path)
    asked.map Tour.upkeep = lines.filterMap (requested b) ∧
    (path ∉ linkNames b binary.dir → after.files path = disk.files path) ∧
    (path ∈ linkNames b binary.dir → (∀ tour ∈ asked, tour.granted refuses path = true ∨ tour.refused refuses path) ∧
      ((∀ n, refuses n = false) → done = asked) ∧
      after.files path = (done.map Tour.upkeep).foldl (fun slot upkeep => upkeep.step binary.name slot) (disk.files path)) := by
  intro after asked done
  obtain ⟨decided,files⟩ := tours_slot binary refuses perm enough lines called disk path
  refine ⟨tours_upkeep b _ fuel _ lines disk,?_,?_⟩
  · intro outside
    have nothing : done = [] := List.filter_eq_nil_iff.mpr (fun tour member granted => outside ((decided tour member).1 granted))
    rw [show after.files path = _ from files]
    change (done.map Tour.upkeep).foldl _ _ = _
    rw [nothing]
    rfl
  · intro inside
    refine ⟨fun tour member => (decided tour member).2 inside,?_,files⟩
    intro allowed
    refine List.filter_eq_self.mpr (fun tour member => ?_)
    rcases (decided tour member).2 inside with granted | ⟨_,n,_,refused,_⟩
    · exact granted
    · rw [allowed] at refused
      cases refused

def reinstalled : List (List Arg) :=
  [["iotools","--make-links"],["iotools","io_read8","0x70"],["iotools","--clean-links"],
    ["/usr/sbin/iotools","--make-links"]].map (fun line => line.map Arg.of)

-- Cleaning has taken another package's rdmsr away, and making puts a link in its
-- place.
theorem link_session_replaces :
    packaged.files "/usr/sbin/rdmsr".toList ≠ none ∧
    (Prog.session (host sbin (fun _ => false)) (reinstalled.map (runCommand .x86_64 (registerAll (groups .x86_64)) 9))
      packaged).files "/usr/sbin/rdmsr".toList = some (.symlink "iotools".toList) := by
  obtain ⟨same,_,listed⟩ := link_session sbin (fun _ => false) .x86_64 (groups .x86_64) (.refl _) 9 (by decide) reinstalled
    (by decide) packaged "/usr/sbin/rdmsr".toList
  obtain ⟨_,all,files⟩ := listed (by decide +kernel)
  have asked : reinstalled.filterMap (requested .x86_64) = [.make,.clean,.make] := by decide +kernel
  have held : packaged.files "/usr/sbin/rdmsr".toList = some (.regular [0x7f,0x45,0x4c,0x46]) := rfl
  have ends : [Upkeep.make,.clean,.make].foldl (fun slot upkeep => upkeep.step sbin.name slot)
      (some (.regular [0x7f,0x45,0x4c,0x46])) = some (.symlink "iotools".toList) := by decide
  rw [all (fun _ => rfl),same,asked,held,ends] at files
  exact ⟨by rw [held]; simp,files⟩

end Iotools
