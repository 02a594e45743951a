import Iotools.LinkSessions
import Iotools.SharedSlots

namespace Iotools
open Numeral Interaction

-- The files are what processes share; the calls they made and errno are their own.
def Disk.parts : Disk ≃ (Text → Option Node) × (Nat × Bool) where
  toFun disk := (disk.files,disk.calls,disk.enoent)
  invFun p := ⟨p.1,p.2.1,p.2.2⟩
  left_inv _ := rfl
  right_inv _ := rfl

def mending (c : Call) : Nat := if (tendedPath c).isSome then 1 else 0

theorem tendedPaths_weighed (trace : Trace Sys) (tended : path ∈ tendedPaths trace) : weighed (tending path) trace ≠ 0 := by
  induction trace with
  | nil => cases tended
  | cons e rest ih =>
    rw [weighed_cons]
    by_cases here : tendedPath e.call = some path
    · have one : tending path e.call = 1 := if_pos here
      omega
    · have later : path ∈ tendedPaths rest := by
        obtain ⟨e',member,found⟩ := List.mem_filterMap.mp tended
        rcases List.mem_cons.mp member with rfl | behind
        · exact absurd found here
        · exact List.mem_filterMap.mpr ⟨e',behind,found⟩
      have some_ := ih later
      omega

theorem mended_foldl (name : Text) (asks : α → Option Upkeep) (done : List α) (slot : Option Node) :
    done.foldl (fun slot a => mended name (asks a) slot) slot =
      (done.filterMap asks).foldl (fun slot upkeep => upkeep.step name slot) slot := by
  induction done generalizing slot with
  | nil => rfl
  | cons a rest ih =>
    rw [List.foldl_cons,ih]
    cases asked : asks a with
    | none =>
      simp [mended,asked]
    | some upkeep =>
      simp [mended,asked]

theorem mended_same {asks : α → Option Upkeep} {done : List α} (same : ∀ a ∈ done, asks a = some upkeep)
    (some_ : done ≠ []) (name : Text) (slot : Option Node) :
    done.foldl (fun slot a => mended name (asks a) slot) slot = upkeep.step name slot := by
  induction done generalizing slot with
  | nil => exact absurd rfl some_
  | cons a rest ih =>
    have first : mended name (asks a) slot = upkeep.step name slot := by
      simp [mended,same a List.mem_cons_self]
    rw [List.foldl_cons,first]
    by_cases last : rest = []
    · rw [last]
      rfl
    · rw [ih (fun other member => same other (List.mem_cons_of_mem _ member)) last,Upkeep.step_again]

section Crowds
variable {b : Build} {order : List Group} (perm : order.Perm (groups b)) (enough : order.length ≤ fuel) (binary : Binary)
  (refuses : Nat → Bool) {line : ι → List Arg} (called : ∀ i, line i ≠ [])

include perm enough called in
theorem line_mends (i : ι) :
    (runCommand b (registerAll order) fuel (line i)).All (fun trace _ =>
      (∀ e ∈ trace, Finds binary e) → ∀ e ∈ trace, Mends b binary (requested b (line i)) e.call) :=
  (runCommand_promised perm enough binary (line i) (called i)).mono (fun _ _ promised lawful => (promised lawful).1)

theorem split_finds (c : Call) (s : (Text → Option Node) × (Nat × Bool)) :
    Finds binary ⟨c,((host binary refuses).split Disk.parts c s).1⟩ :=
  host_finds binary refuses c ⟨s.1,s.2.1,s.2.2⟩

theorem split_ticks (c : Call) (s : (Text → Option Node) × (Nat × Bool)) :
    ((host binary refuses).split Disk.parts c s).2.2.1 = s.2.1 + 1 :=
  host_calls binary refuses c ⟨s.1,s.2.1,s.2.2⟩

theorem split_numbered (numbered : Numbered ((host binary refuses).split Disk.parts) (fun s => s.2.1) first trace) :
    Numbered (host binary refuses) Disk.calls first trace := by
  intro e n member
  obtain ⟨s,count,answer⟩ := numbered e n member
  exact ⟨Disk.parts.symm s,count,answer⟩

variable [DecidableEq ι]

include perm enough called in
theorem links_slot {crowd : Crowd ι Sys Fault Int (Text → Option Node) (Nat × Bool)}
    (begun : crowd.Begun (fun i => runCommand b (registerAll order) fuel (line i)) (Finds binary))
    (path : Text) (schedule : List ι) :
    let kernel := (host binary refuses).split Disk.parts
    (crowd.interleave mending kernel schedule).shared path =
      ((crowd.attempts mending kernel (tending path) schedule).filter (fun attempt => !refuses attempt.2.1)).foldl
        (fun slot attempt => mended binary.name (requested b (line attempt.1)) slot) (crowd.shared path) := by
  intro kernel
  refine Crowd.interleave_slot (split_finds binary refuses) (line_mends perm enough binary called) (fun files => files path)
    (fun i => mended binary.name (requested b (line i))) (fun own => !refuses own.1) ?_ ?_ begun schedule
  · intro c s idle
    exact host_quiet binary refuses path c ⟨s.1,s.2.1,s.2.2⟩ (fun here => tending_some.mpr here idle)
  · intro i c s mends tends
    have acts := host_acts binary refuses path c ⟨s.1,s.2.1,s.2.2⟩ mends (tending_some.mp tends)
    refine acts.trans ?_
    cases refuses s.2.1 <;> rfl

end Crowds

-- At every path the makes and cleans that came to it follow each other in some
-- order that respects time, less those that were refused there; and what ended
-- well has come to every name. The order need not be the same at two paths.
theorem link_concurrent (b : Build) (order : List Group) (perm : order.Perm (groups b)) (fuel : Nat)
    (enough : order.length ≤ fuel) (binary : Binary) (refuses : Nat → Bool) (ι : Type) [DecidableEq ι] (line : ι → List Arg)
    (called : ∀ i, line i ≠ []) (own : ι → Nat × Bool) (files : Text → Option Node) (schedule : List ι) :
    let program := fun i => runCommand b (registerAll order) fuel (line i)
    let kernel := (host binary refuses).split Disk.parts
    let after := Crowd.interleave mending kernel schedule (Crowd.start program own files)
    ∀ path, ∃ tried : List (ι × Nat), Crowd.Timely program own files mending kernel schedule (tried.map Prod.fst) ∧
      (∀ i, (tried.filter (fun attempt => attempt.1 = i)).map Prod.snd =
        callNumbers (tending path) (own i).1 (after.member i).trace) ∧
      (∀ attempt ∈ tried, path ∈ linkNames b binary.dir ∧ requested b (line attempt.1) ≠ none) ∧
      (∀ i, requested b (line i) ≠ none → ∀ outcome, (after.member i).program.result = some outcome →
        outcome = .ok 0 ∧ (path ∈ linkNames b binary.dir → i ∈ tried.map Prod.fst) ∨
        outcome = .ok (-1) ∧ ∃ n, (unlocated,n) ∈ (after.member i).trace.zipIdx (own i).1 ∧ refuses n = true) ∧
      after.shared path = ((tried.filter (fun attempt => !refuses attempt.2)).filterMap fun attempt =>
        requested b (line attempt.1)).foldl (fun slot upkeep => upkeep.step binary.name slot) (files path) := by
  intro program kernel after path
  let start : Crowd ι Sys Fault Int (Text → Option Node) (Nat × Bool) := Crowd.start program own files
  let attempts := start.attempts mending kernel (tending path) schedule
  have begun := Crowd.start_begun program own files (Finds binary)
  have clocked : start.Clocked kernel Prod.fst _ := Crowd.start_clocked kernel Prod.fst program own files
  have ticks := split_ticks binary refuses
  have members : (attempts.map fun attempt => (attempt.1,attempt.2.1)).map Prod.fst =
      start.marks mending kernel (tending path) schedule := by
    rw [List.map_map]
    exact Crowd.attempts_members start schedule
  refine ⟨attempts.map (fun attempt => (attempt.1,attempt.2.1)),?_,?_,?_,?_,?_⟩
  · rw [members]
    exact Crowd.marks_timely program own files schedule
  · intro i
    refine Eq.trans ?_ (clocked.attempts ticks (tending path) schedule i)
    rw [List.filter_map,List.map_map]
    rfl
  · intro attempt tried
    have marked : attempt.1 ∈ start.marks mending kernel (tending path) schedule := by
      rw [← members]
      exact List.mem_map_of_mem tried
    obtain ⟨c,mends,tends⟩ := Crowd.marks_good (split_finds binary refuses) (line_mends perm enough binary called) begun
      schedule marked
    exact mends_listed mends (tending_some.mp tends)
  · intro i asked outcome ended
    have promised := (begun.interleave (split_finds binary refuses) schedule).ended
      (runCommand_promised perm enough binary (line i) (called i)) ended
    rcases promised.2 asked with ⟨well,tended⟩ | ⟨failed,missing⟩
    · refine .inl ⟨well,fun listed => ?_⟩
      rw [members]
      have weighs := tendedPaths_weighed _ (tended path listed)
      exact (Crowd.marks_trace _ schedule weighs).resolve_left (fun some_ => some_ rfl)
    · exact .inr ⟨failed,numbered_unlocated (split_numbered binary refuses ((clocked.interleave ticks schedule).numbered i)) missing⟩
  · refine (links_slot perm enough binary refuses called begun path schedule).trans ?_
    rw [mended_foldl,List.filter_map,List.filterMap_map]
    rfl

def initrd : Binary := ⟨[],sbin.name,sbin.plain,by decide⟩
def shellLine (i : Nat) : List Arg := ["iotools",if i = 1 then "--clean-links" else "--make-links"].map Arg.of

theorem shellLine_called (i : Nat) : shellLine i ≠ [] := by simp [shellLine]

-- rdmsr is made and then cleaned, wrmsr cleaned and then made.
theorem link_concurrent_crossed :
    let program := fun i => runCommand .x86_64 (registerAll (groups .x86_64)) 9 (shellLine i)
    let kernel := (host initrd (fun _ => false)).split Disk.parts
    let after := Crowd.interleave mending kernel [0,0,0,1,1,1,0,0] (Crowd.start program (fun _ => (0,false)) (fun _ => none))
    after.shared "/rdmsr".toList = none ∧ after.shared "/wrmsr".toList = some (.symlink "iotools".toList) ∧
    ∀ path, ∃ tried : List (Nat × Nat),
      (∀ i, (tried.filter (fun attempt => attempt.1 = i)).map Prod.snd = callNumbers (tending path) 0 (after.member i).trace) ∧
      after.shared path = (tried.filterMap fun attempt => requested .x86_64 (shellLine attempt.1)).foldl
        (fun slot upkeep => upkeep.step initrd.name slot) none := by
  intro program kernel after
  refine ⟨by decide +kernel,by decide +kernel,fun path => ?_⟩
  obtain ⟨tried,_,calls,_,_,ends⟩ := link_concurrent .x86_64 (groups .x86_64) (.refl _) 9 (by decide) initrd (fun _ => false) Nat
    shellLine shellLine_called (fun _ => (0,false)) (fun _ => none) [0,0,0,1,1,1,0,0] path
  have all : tried.filter (fun _ => !false) = tried := List.filter_eq_self.mpr (fun _ _ => rfl)
  rw [all] at ends
  exact ⟨tried,calls,ends⟩

-- Whatever was killed half-way before, and whatever goes on of the same kind:
-- one run that begins now and comes to its end leaves every name made, or every
-- name clean, and nothing else touched.
theorem link_recovery (b : Build) (order : List Group) (perm : order.Perm (groups b)) (fuel : Nat)
    (enough : order.length ≤ fuel) (binary : Binary) (ι : Type) [DecidableEq ι] (line : ι → List Arg) (called : ∀ i, line i ≠ [])
    (own : ι → Nat × Bool) (files : Text → Option Node) (first second : List ι) (upkeep : Upkeep) (i : ι)
    (asked : requested b (line i) = some upkeep) (begins : i ∉ first)
    (alone : ∀ j ∈ second, requested b (line j) = some upkeep ∨ requested b (line j) = none) :
    let kernel := (host binary (fun _ => false)).split Disk.parts
    let between := Crowd.interleave mending kernel first
      (Crowd.start (fun i => runCommand b (registerAll order) fuel (line i)) own files)
    let after := Crowd.interleave mending kernel second between
    (after.member i).program.result ≠ none →
      (after.member i).program.result = some (.ok 0) ∧
      ∀ path, after.shared path =
        if path ∈ linkNames b binary.dir then upkeep.step binary.name (between.shared path) else between.shared path := by
  intro kernel between after ended
  let refuses : Nat → Bool := fun _ => false
  let program := fun i => runCommand b (registerAll order) fuel (line i)
  have lawful := split_finds binary refuses
  have mends := line_mends perm enough binary called
  have begun : between.Begun program _ := (Crowd.start_begun program own files _).interleave lawful first
  obtain ⟨outcome,returned⟩ := Option.ne_none_iff_exists'.mp ended
  have promised := (begun.interleave lawful second).ended
    (runCommand_promised perm enough binary (line i) (called i)) returned
  have located : unlocated ∉ (after.member i).trace := by
    intro missing
    have ticks := split_ticks binary refuses
    have clocked : after.Clocked kernel Prod.fst _ :=
      ((Crowd.start_clocked kernel Prod.fst program own files).interleave ticks first).interleave ticks second
    obtain ⟨_,_,refused⟩ := numbered_unlocated (split_numbered binary refuses (clocked.numbered i)) missing
    cases refused
  obtain ⟨well,tends⟩ := (promised.2 (by rw [asked]; simp)).resolve_right (fun missing => located missing.2)
  refine ⟨by rw [returned,well],fun path => ?_⟩
  have ends : after.shared path = (between.marks mending kernel (tending path) second).foldl
      (fun slot i => mended binary.name (requested b (line i)) slot) (between.shared path) := by
    refine (links_slot perm enough binary refuses called begun path second).trans ?_
    rw [← Crowd.attempts_members,List.foldl_map]
    congr 1
    exact List.filter_eq_self.mpr (fun _ _ => rfl)
  have acted : ∀ j ∈ Crowd.marks mending kernel (tending path) second between,
      path ∈ linkNames b binary.dir ∧ requested b (line j) = some upkeep := by
    intro j marked
    obtain ⟨c,fits,touches⟩ := Crowd.marks_good lawful mends begun second marked
    obtain ⟨listed,wants⟩ := mends_listed fits (tending_some.mp touches)
    exact ⟨listed,(alone j (Crowd.marks_open between second marked).1).resolve_right wants⟩
  refine ends.trans ?_
  split
  · rename_i listed
    have quiet : ¬ weighed (tending path) (between.member i).trace ≠ 0 := by
      change ¬ weighed (tending path) ((Crowd.interleave mending kernel first _).member i).trace ≠ 0
      rw [Crowd.interleave_still _ first begins]
      exact fun some_ => some_ rfl
    have marked := (Crowd.marks_trace between second (tendedPaths_weighed _ (tends path listed))).resolve_left quiet
    exact mended_same (fun j member => (acted j member).2) (List.ne_nil_of_mem marked) _ _
  · rename_i unlisted
    have none_ : Crowd.marks mending kernel (tending path) second between = [] :=
      List.eq_nil_iff_forall_not_mem.mpr (fun j member => unlisted (acted j member).1)
    change List.foldl _ _ (Crowd.marks mending kernel (tending path) second between) = _
    rw [none_]
    rfl

theorem link_recovery_killed :
    let kernel := (host initrd (fun _ => false)).split Disk.parts
    let between := Crowd.interleave mending kernel [0,0,0,1,1,1]
      (Crowd.start (fun i => runCommand .x86_64 (registerAll (groups .x86_64)) 9 (shellLine i)) (fun _ => (0,false))
        (fun _ => none))
    let after := Crowd.interleave mending kernel (List.replicate 129 2) between
    between.shared "/rdmsr".toList = none ∧ after.shared "/rdmsr".toList = some (.symlink "iotools".toList) := by
  intro kernel between after
  have clean : between.shared "/rdmsr".toList = none := by decide +kernel
  have ended : (after.member 2).program.result ≠ none := by decide +kernel
  have make : requested .x86_64 (shellLine 2) = some .make := by decide +kernel
  have listed : "/rdmsr".toList ∈ linkNames .x86_64 initrd.dir := by decide +kernel
  have alone : ∀ j ∈ List.replicate 129 2,
      requested .x86_64 (shellLine j) = some .make ∨ requested .x86_64 (shellLine j) = none := by
    intro j member
    rw [List.eq_of_mem_replicate member]
    exact .inl make
  have recovers := link_recovery .x86_64 (groups .x86_64) (.refl _) 9 (by decide) initrd Nat shellLine shellLine_called
    (fun _ => (0,false)) (fun _ => none) [0,0,0,1,1,1] (List.replicate 129 2) .make 2 make (by decide) alone
  subst after between
  -- so that nothing below evaluates the runs again
  generalize List.replicate 129 2 = second at *
  generalize [0,0,0,1,1,1] = first at *
  have linked := (recovers ended).2 "/rdmsr".toList
  rw [if_pos listed,clean] at linked
  exact ⟨clean,linked⟩

end Iotools
