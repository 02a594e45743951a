import Iotools.Sessions
import Mathlib.Data.List.Infix
import Mathlib.Data.List.Nodup
import Mathlib.Logic.Equiv.Defs

namespace Interaction

section Access
-- The indivisible accesses to what several processes share, that a request takes.
variable {I : Interface} (weight : I.Call → Nat)

def weighed (trace : Trace I) : Nat := trace.foldr (fun e total => weight e.call + total) 0

@[simp] theorem weighed_nil : weighed weight ([] : Trace I) = 0 := rfl
@[simp] theorem weighed_cons (e : Event I) (rest : Trace I) :
    weighed weight (e :: rest) = weight e.call + weighed weight rest := rfl
@[simp] theorem weighed_append (left right : Trace I) :
    weighed weight (left ++ right) = weighed weight left + weighed weight right := by
  induction left with
  | nil => simp
  | cons e rest ih => rw [List.cons_append,weighed_cons,weighed_cons,ih,Nat.add_assoc]

-- No run takes more of them, whatever the answers are.
def Prog.AtMost (limit : Nat) (program : Prog I F α) : Prop := program.All (fun trace _ => weighed weight trace ≤ limit)

namespace Prog
variable {weight} {limit : Nat}

@[simp] theorem atMost_done (value : α) : (Prog.done value : Prog I F α).AtMost weight limit := Nat.zero_le _
@[simp] theorem atMost_fault (reason : F) : (Prog.fault reason : Prog I F α).AtMost weight limit := Nat.zero_le _

theorem AtMost.mono {program : Prog I F α} (bounded : program.AtMost weight limit) (wider : limit ≤ limit') :
    program.AtMost weight limit' :=
  All.mono bounded (fun _ _ short => short.trans wider)

theorem atMost_call {c : I.Call} {next : I.Answer c → Prog I F α} (rest : ∀ answer, (next answer).AtMost weight limit) :
    (Prog.call c next).AtMost weight (weight c + limit) := by
  intro answer
  refine All.mono (rest answer) ?_
  intro trace _ short
  change weighed weight (⟨c,answer⟩ :: trace) ≤ weight c + limit
  rw [weighed_cons]
  exact Nat.add_le_add_left short _

theorem atMost_idle {c : I.Call} {next : I.Answer c → Prog I F α} (idle : weight c = 0)
    (rest : ∀ answer, (next answer).AtMost weight limit) : (Prog.call c next).AtMost weight limit := by
  have bounded := atMost_call rest
  rwa [idle,Nat.zero_add] at bounded

theorem AtMost.bind {program : Prog I F α} {next : α → Prog I F β} (first : program.AtMost weight limit)
    (rest : ∀ value, (next value).AtMost weight limit') : (program >>= next).AtMost weight (limit + limit') := by
  refine All.bind first ?_ ?_
  · intro trace _ short
    omega
  · intro trace value short
    refine All.mono (rest value) ?_
    intro later _ fewer
    rw [weighed_append]
    omega

theorem AtMost.behind {program : Prog I F α} {next : α → Prog I F β} (idle : program.AtMost weight 0)
    (rest : ∀ value, (next value).AtMost weight limit) : (program >>= next).AtMost weight limit :=
  (idle.bind rest).mono (by omega)

theorem AtMost.before {program : Prog I F α} {next : α → Prog I F β} (first : program.AtMost weight limit)
    (idle : ∀ value, (next value).AtMost weight 0) : (program >>= next).AtMost weight limit :=
  first.bind idle

theorem Safe.idle {program : Prog I F α} {good : Event I → Prop} {fine : F → Prop} (safe : program.Safe good fine)
    (idle : ∀ e, good e → weight e.call = 0) : program.AtMost weight 0 := by
  induction program with
  | done value => exact atMost_done value
  | fault reason => exact atMost_fault reason
  | call c next ih => exact fun answer => atMost_idle (idle _ (safe answer).1) (fun answer => ih answer (safe answer).2) answer

theorem AtMost.next {c : I.Call} {next : I.Answer c → Prog I F α} (bounded : (Prog.call c next).AtMost weight limit)
    (answer : I.Answer c) : (next answer).AtMost weight (limit - weight c) := by
  refine All.mono (bounded answer) ?_
  intro trace _ short
  change weight c + weighed weight trace ≤ limit at short
  exact Nat.le_sub_of_add_le' short

def asks (weight : I.Call → Nat) : Prog I F α → Nat
  | .call c _ => weight c
  | _ => 0

theorem AtMost.asks {program : Prog I F α} (bounded : program.AtMost weight limit) (kernel : Kernel I σ) (s : σ) :
    program.asks weight ≤ limit := by
  cases program with
  | done value => exact Nat.zero_le _
  | fault reason => exact Nat.zero_le _
  | call c next =>
    have short := All.exec bounded kernel s
    rw [exec_call,weighed_cons] at short
    exact (Nat.le_add_right _ _).trans short

end Prog
end Access

namespace Prog

-- What a program has come to, once it has nothing left to ask.
def result : Prog I F α → Option (Except F α)
  | .done value => some (.ok value)
  | .fault reason => some (.error reason)
  | .call .. => none

theorem result_exec {program : Prog I F α} (ended : program.result = some outcome) (kernel : Kernel I σ) (s : σ) :
    program.exec kernel s = ⟨[],outcome,s⟩ := by
  cases program with
  | done value => cases ended; rfl
  | fault reason => cases ended; rfl
  | call c next => cases ended

theorem result_atMost {program : Prog I F α} (ended : program.result ≠ none) {weight : I.Call → Nat} : program.AtMost weight 0 := by
  cases program with
  | done value => exact atMost_done value
  | fault reason => exact atMost_fault reason
  | call c next => exact absurd rfl ended

-- One request, with the answer; nothing happens to a program that has ended.
def step (kernel : Kernel I σ) : Prog I F α → σ → Trace I × Prog I F α × σ
  | .call c next,s => ([⟨c,(kernel c s).1⟩],next (kernel c s).1,(kernel c s).2)
  | program,s => ([],program,s)

theorem step_exec (kernel : Kernel I σ) (program : Prog I F α) (s : σ) :
    program.exec kernel s =
      ((program.step kernel s).2.1.exec kernel (program.step kernel s).2.2).prepend (program.step kernel s).1 := by
  cases program with
  | done value => rfl
  | fault reason => rfl
  | call c next => rfl

theorem AtMost.step {program : Prog I F α} {weight : I.Call → Nat} {limit : Nat} (bounded : program.AtMost weight limit)
    (kernel : Kernel I σ) (s : σ) : (program.step kernel s).2.1.AtMost weight (limit - program.asks weight) := by
  cases program with
  | done value => exact atMost_done value
  | fault reason => exact atMost_fault reason
  | call c next => exact bounded.next _

end Prog

-- A request without an access depends on nothing that is shared, and changes
-- nothing of it: the rest of the state is the process' own.
def Isolated {I : Interface} (weight : I.Call → Nat) (kernel : Kernel I (S × L)) : Prop :=
  ∀ c, weight c = 0 → ∀ (s s' : S) (own : L), kernel c (s,own) = ((kernel c (s',own)).1,s,(kernel c (s',own)).2.2)

section Isolated
variable {I : Interface} {weight : I.Call → Nat} {kernel : Kernel I (S × L)} (isolated : Isolated weight kernel)
include isolated

theorem Isolated.step {program : Prog I F α} (idle : program.asks weight = 0) (s s' : S) (own : L) :
    program.step kernel (s,own) =
      ((program.step kernel (s',own)).1,(program.step kernel (s',own)).2.1,s,(program.step kernel (s',own)).2.2.2) := by
  cases program with
  | done value => rfl
  | fault reason => rfl
  | call c next =>
    simp only [Prog.step]
    rw [isolated c idle s s' own]

theorem Isolated.exec {program : Prog I F α} (bounded : program.AtMost weight 0) (s : S) (own : L) :
    (program.exec kernel (s,own)).state.1 = s := by
  induction program generalizing own with
  | done value => rfl
  | fault reason => rfl
  | call c next ih =>
    have idle : weight c = 0 := Nat.le_zero.mp (bounded.asks kernel (s,own))
    have answered := isolated c idle s s own
    rw [Prog.exec_call,answered]
    exact ih _ ((bounded.next _).mono (Nat.sub_le _ _)) _

end Isolated

-- A process: what it still has to do, the state nobody else sees, and what has
-- happened to it.
structure Process (I : Interface) (F α L : Type) where
  program : Prog I F α
  own : L
  trace : Trace I

-- Processes over one shared state. `turns` is history only: it names each
-- process once, when it makes an access or comes to its end without one.
structure Crowd (ι : Type) (I : Interface) (F α S L : Type) where
  shared : S
  member : ι → Process I F α L
  turns : List ι

namespace Crowd
variable {ι : Type} {I : Interface} (weight : I.Call → Nat) (kernel : Kernel I (S × L))

section Start
variable (program : ι → Prog I F α) (own : ι → L) (s : S)

def start : Crowd ι I F α S L := ⟨s,fun i => ⟨program i,own i,[]⟩,[]⟩

-- What is shared after whole runs, one behind the other.
def inTurn (turns : List ι) : S := turns.foldl (fun s i => ((program i).exec kernel (s,own i)).state.1) s

@[simp] theorem inTurn_nil : inTurn kernel program own s [] = s := rfl
theorem inTurn_concat (turns : List ι) (i : ι) :
    inTurn kernel program own s (turns ++ [i]) =
      ((program i).exec kernel (inTurn kernel program own s turns,own i)).state.1 := by
  simp [inTurn]

-- The history explains the crowd: those who had their turn have done what they
-- do in a run of their own at that place, the others nothing that shows.
structure Ordered (crowd : Crowd ι I F α S L) : Prop where
  distinct : crowd.turns.Nodup
  shared : crowd.shared = inTurn kernel program own s crowd.turns
  waiting : ∀ i ∉ crowd.turns, (crowd.member i).program.AtMost weight 1 ∧ ∀ s',
    (program i).exec kernel (s',own i) =
      ((crowd.member i).program.exec kernel (s',(crowd.member i).own)).prepend (crowd.member i).trace
  served : ∀ before i, before ++ [i] <+: crowd.turns → (crowd.member i).program.AtMost weight 0 ∧
    (program i).exec kernel (inTurn kernel program own s before,own i) =
      ((crowd.member i).program.exec kernel
        (inTurn kernel program own s (before ++ [i]),(crowd.member i).own)).prepend (crowd.member i).trace

variable {weight} {program}

theorem start_ordered (single : ∀ i, (program i).AtMost weight 1) :
    Ordered weight kernel program own s (start program own s) where
  distinct := List.nodup_nil
  shared := rfl
  waiting := fun i _ => ⟨single i,fun s' => rfl⟩
  served := by
    intro before i early
    simp [start] at early

variable {kernel} {own} {s}

theorem inTurn_store {J : S → Prop} {view : S → Cell → Value} {patch : ι → Patch Cell Value}
    (effect : ∀ i s, J s → J ((program i).exec kernel (s,own i)).state.1 ∧
      view ((program i).exec kernel (s,own i)).state.1 = (patch i).apply (view s)) (holds : J s) (turns : List ι) :
    J (inTurn kernel program own s turns) ∧
    view (inTurn kernel program own s turns) = (Patch.last (turns.map patch)).apply (view s) := by
  induction turns generalizing s with
  | nil => exact ⟨holds,rfl⟩
  | cons i rest ih =>
    obtain ⟨kept,changed⟩ := effect i s holds
    obtain ⟨ends,stores⟩ := ih kept
    refine ⟨ends,?_⟩
    rw [List.map_cons,Patch.last_cons,← changed]
    exact stores

end Start

variable [DecidableEq ι]

def advance (crowd : Crowd ι I F α S L) (i : ι) : Crowd ι I F α S L :=
  let process := crowd.member i
  let step := process.program.step kernel (crowd.shared,process.own)
  { shared := step.2.2.1
    member := Function.update crowd.member i ⟨step.2.1,step.2.2.2,process.trace ++ step.1⟩
    turns := if i ∈ crowd.turns ∨ process.program.asks weight = 0 ∧ step.2.1.result = none then crowd.turns
      else crowd.turns ++ [i] }

section Member
variable {weight} {kernel} {crowd : Crowd ι I F α S L}

theorem advance_self (i : ι) :
    (advance weight kernel crowd i).member i =
      ⟨((crowd.member i).program.step kernel (crowd.shared,(crowd.member i).own)).2.1,
        ((crowd.member i).program.step kernel (crowd.shared,(crowd.member i).own)).2.2.2,
        (crowd.member i).trace ++ ((crowd.member i).program.step kernel (crowd.shared,(crowd.member i).own)).1⟩ :=
  Function.update_self ..

theorem advance_other {i j : ι} (other : j ≠ i) : (advance weight kernel crowd i).member j = crowd.member j :=
  Function.update_of_ne other ..

end Member

-- The processes step in the order of a schedule, which may stop at any point.
def interleave (schedule : List ι) (crowd : Crowd ι I F α S L) : Crowd ι I F α S L :=
  schedule.foldl (advance weight kernel) crowd

section Ordered
variable {weight} {kernel} {program : ι → Prog I F α} {own : ι → L} {s : S}

variable {crowd : Crowd ι I F α S L} (isolated : Isolated weight kernel) (ordered : Ordered weight kernel program own s crowd)
include isolated ordered

-- A step with no turn in it: behind its turn, or before an access.
theorem Ordered.quiet_step {i : ι} (idle : (crowd.member i).program.asks weight = 0)
    (same : (advance weight kernel crowd i).turns = crowd.turns) : Ordered weight kernel program own s (advance weight kernel crowd i) where
  distinct := by rw [same]; exact ordered.distinct
  shared := by
    rw [same,← ordered.shared]
    change ((crowd.member i).program.step kernel _).2.2.1 = _
    rw [isolated.step idle crowd.shared crowd.shared]
  waiting := by
    intro j out
    rw [same] at out
    obtain ⟨bounded,shows⟩ := ordered.waiting j out
    by_cases here : j = i
    · subst here
      simp only [advance_self]
      refine ⟨?_,?_⟩
      · have later := bounded.step kernel (crowd.shared,(crowd.member j).own)
        rwa [idle] at later
      · intro s'
        rw [shows,Prog.step_exec,Run.prepend_prepend,isolated.step idle s' crowd.shared]
    · rw [advance_other here]
      exact ⟨bounded,shows⟩
  served := by
    intro before j early
    rw [same] at early
    obtain ⟨bounded,shows⟩ := ordered.served before j early
    by_cases here : j = i
    · subst here
      simp only [advance_self]
      refine ⟨?_,?_⟩
      · exact (bounded.step kernel (crowd.shared,(crowd.member j).own)).mono (Nat.sub_le _ _)
      · rw [shows,Prog.step_exec,Run.prepend_prepend,isolated.step idle _ crowd.shared]
    · rw [advance_other here]
      exact ⟨bounded,shows⟩

-- The step that is the turn: the access, or the end.
theorem Ordered.turn_step {i : ι} (out : i ∉ crowd.turns) (turn : (advance weight kernel crowd i).turns = crowd.turns ++ [i])
    (spent : ((advance weight kernel crowd i).member i).program.AtMost weight 0) :
    Ordered weight kernel program own s (advance weight kernel crowd i) := by
  obtain ⟨_,shows⟩ := ordered.waiting i out
  have now := shows crowd.shared
  rw [Prog.step_exec kernel (crowd.member i).program,Run.prepend_prepend] at now
  have spent' : ((crowd.member i).program.step kernel (crowd.shared,(crowd.member i).own)).2.1.AtMost weight 0 := by
    simpa only [advance_self] using spent
  have after : (advance weight kernel crowd i).shared = inTurn kernel program own s (crowd.turns ++ [i]) := by
    rw [inTurn_concat,← ordered.shared,now]
    exact (isolated.exec spent' _ _).symm
  refine ⟨?_,?_,?_,?_⟩
  · rw [turn]
    exact List.nodup_append.mpr ⟨ordered.distinct,List.nodup_singleton i,by
      intro j earlier k last same
      rw [same,List.mem_singleton.mp last] at earlier
      exact out earlier⟩
  · rw [turn]
    exact after
  · intro j waits
    rw [turn,List.mem_append,List.mem_singleton,not_or] at waits
    rw [advance_other waits.2]
    exact ordered.waiting j waits.1
  · intro before j early
    rw [turn,List.prefix_concat_iff] at early
    rcases early with whole | early
    · obtain ⟨rfl,same⟩ := List.append_inj' whole rfl
      cases same
      refine ⟨spent,?_⟩
      rw [← after,← ordered.shared,now,advance_self]
      rfl
    · have member : j ∈ crowd.turns := early.subset (by simp)
      have other : j ≠ i := fun same => out (same ▸ member)
      rw [advance_other other]
      exact ordered.served before j early

theorem Ordered.advance (i : ι) : Ordered weight kernel program own s (crowd.advance weight kernel i) := by
  by_cases member : i ∈ crowd.turns
  · obtain ⟨before,later,split⟩ := List.append_of_mem member
    have early : before ++ [i] <+: crowd.turns := ⟨later,by rw [split]; simp⟩
    have idle := Nat.le_zero.mp ((ordered.served before i early).1.asks kernel (crowd.shared,(crowd.member i).own))
    exact ordered.quiet_step isolated idle (if_pos (.inl member))
  · obtain ⟨bounded,_⟩ := ordered.waiting i member
    have limit := bounded.asks kernel (crowd.shared,(crowd.member i).own)
    have later := bounded.step kernel (crowd.shared,(crowd.member i).own)
    by_cases idle : (crowd.member i).program.asks weight = 0
    · by_cases ended : ((crowd.member i).program.step kernel (crowd.shared,(crowd.member i).own)).2.1.result = none
      · exact ordered.quiet_step isolated idle (if_pos (.inr ⟨idle,ended⟩))
      · refine ordered.turn_step isolated member (if_neg ?_) ?_
        · exact not_or.mpr ⟨member,fun both => ended both.2⟩
        · simp only [advance_self]
          exact Prog.result_atMost ended
    · refine ordered.turn_step isolated member (if_neg ?_) ?_
      · exact not_or.mpr ⟨member,fun both => idle both.1⟩
      · simp only [advance_self]
        exact later.mono (by omega)

theorem Ordered.interleave (schedule : List ι) : Ordered weight kernel program own s (crowd.interleave weight kernel schedule) := by
  induction schedule generalizing crowd with
  | nil => exact ordered
  | cons i rest ih => exact ih (ordered.advance isolated i)

end Ordered

section Turns
variable {weight} {kernel} (crowd : Crowd ι I F α S L)

theorem interleave_append (first second : List ι) :
    interleave weight kernel (first ++ second) crowd = interleave weight kernel second (interleave weight kernel first crowd) :=
  List.foldl_append

theorem advance_turns (i : ι) :
    (advance weight kernel crowd i).turns = crowd.turns ∨ (advance weight kernel crowd i).turns = crowd.turns ++ [i] := by
  simp only [advance]
  split
  · exact .inl rfl
  · exact .inr rfl

theorem advance_ended {i : ι} (ended : ((advance weight kernel crowd i).member i).program.result ≠ none) :
    i ∈ (advance weight kernel crowd i).turns := by
  rw [advance_self] at ended
  simp only [advance]
  split
  · rename_i kept
    exact kept.resolve_right (fun both => ended both.2)
  · simp

theorem turns_extend (schedule : List ι) : crowd.turns <+: (interleave weight kernel schedule crowd).turns := by
  induction schedule generalizing crowd with
  | nil => exact List.prefix_refl _
  | cons i rest ih =>
    have now : crowd.turns <+: (advance weight kernel crowd i).turns := by
      rcases advance_turns crowd i with same | longer
      · rw [same]
      · rw [longer]
        exact List.prefix_append _ _
    exact now.trans (ih _)

theorem turns_scheduled (schedule : List ι) :
    ∀ i ∈ (interleave weight kernel schedule crowd).turns, i ∈ crowd.turns ∨ i ∈ schedule := by
  induction schedule generalizing crowd with
  | nil => exact fun i member => .inl member
  | cons j rest ih =>
    intro i member
    rcases ih (advance weight kernel crowd j) i member with earlier | later
    · rcases advance_turns crowd j with same | longer
      · rw [same] at earlier
        exact .inl earlier
      · rw [longer,List.mem_append,List.mem_singleton] at earlier
        rcases earlier with earlier | rfl
        · exact .inl earlier
        · exact .inr (by simp)
    · exact .inr (by simp [later])

theorem turns_complete (schedule seen : List ι) (complete : ∀ i ∈ seen, (crowd.member i).program.result ≠ none → i ∈ crowd.turns)
    (i : ι) (moved : i ∈ seen ∨ i ∈ schedule)
    (ended : ((interleave weight kernel schedule crowd).member i).program.result ≠ none) :
    i ∈ (interleave weight kernel schedule crowd).turns := by
  induction schedule generalizing crowd seen with
  | nil => exact complete i (by simpa using moved) ended
  | cons j rest ih =>
    refine ih (advance weight kernel crowd j) (j :: seen) ?_ ?_ ended
    · intro k member halted
      by_cases here : k = j
      · subst here
        exact advance_ended crowd halted
      · have kept : (advance weight kernel crowd j).member k = crowd.member k := by
          rw [advance_other here]
        rw [kept] at halted
        have earlier := complete k (by simpa [here] using member) halted
        exact (turns_extend crowd [j]).subset earlier
    · rcases moved with earlier | now
      · exact .inl (by simp [earlier])
      · rcases List.mem_cons.mp now with rfl | later
        · exact .inl (by simp)
        · exact .inr later

end Turns

section Linear
variable {weight} {kernel} (program : ι → Prog I F α) (own : ι → L) (s : S)

-- The processes that a schedule has brought to an end are in order, and so that
-- what had ended before another began comes before it.
structure Linear (weight : I.Call → Nat) (kernel : Kernel I (S × L)) (schedule turns : List ι) : Prop where
  distinct : turns.Nodup
  moved : ∀ i ∈ turns, i ∈ schedule
  complete : ∀ i ∈ schedule, ((interleave weight kernel schedule (start program own s)).member i).program.result ≠ none → i ∈ turns
  respects : ∀ first second, schedule = first ++ second → ∀ i ∈ first,
    ((interleave weight kernel first (start program own s)).member i).program.result ≠ none →
    ∀ j ∉ first, ∀ before later, turns = before ++ j :: later → i ∈ before

variable {program} {own} {s}

theorem interleave_linear (isolated : Isolated weight kernel) (single : ∀ i, (program i).AtMost weight 1) (schedule : List ι) :
    Linear program own s weight kernel schedule (interleave weight kernel schedule (start program own s)).turns where
  distinct := ((start_ordered kernel own s single).interleave isolated schedule).distinct
  moved := by
    intro i member
    exact (turns_scheduled _ schedule i member).resolve_left (by simp [start])
  complete := fun i member ended => turns_complete _ schedule [] (by simp) i (.inr member) ended
  respects := by
    intro first second split i early ended j late before later turns
    have mine := turns_complete _ first [] (by simp) i (.inr early) ended
    have extends_ : (interleave weight kernel first (start program own s)).turns <+:
        (interleave weight kernel schedule (start program own s)).turns := by
      rw [split,interleave_append]
      exact turns_extend _ second
    have other : j ∉ (interleave weight kernel first (start program own s)).turns := fun member =>
      late ((turns_scheduled _ first j member).resolve_left (by simp [start]))
    have place : before ++ [j] <+: (interleave weight kernel schedule (start program own s)).turns := ⟨later,by rw [turns]; simp⟩
    rcases List.prefix_or_prefix_of_prefix extends_ place with shorter | longer
    · rcases List.prefix_concat_iff.mp shorter with same | before_
      · exact absurd (by rw [same]; simp) other
      · exact before_.subset mine
    · exact absurd (longer.subset (by simp)) other

theorem interleave_served (isolated : Isolated weight kernel) (single : ∀ i, (program i).AtMost weight 1) (schedule : List ι) :
    let after := interleave weight kernel schedule (start program own s)
    after.shared = inTurn kernel program own s after.turns ∧
    ∀ before i later, after.turns = before ++ i :: later → ∀ outcome, (after.member i).program.result = some outcome →
      let run := (program i).exec kernel (inTurn kernel program own s before,own i)
      run.trace = (after.member i).trace ∧ run.outcome = outcome := by
  intro after
  have ordered := (start_ordered kernel own s single).interleave isolated schedule
  refine ⟨ordered.shared,?_⟩
  intro before i later turns outcome ended run
  have shows := (ordered.served before i ⟨later,by rw [List.append_assoc]; exact turns.symm⟩).2
  rw [Prog.result_exec ended] at shows
  have mine : run = _ := shows
  rw [mine]
  exact ⟨List.append_nil _,rfl⟩

-- Any interleaving is as good as turns: the store holds what the processes gave
-- it in their order, and what each of them tells is true of the store it found.
theorem interleave_store (isolated : Isolated weight kernel) (single : ∀ i, (program i).AtMost weight 1) (J : S → Prop)
    (view : S → Cell → Value) (patch : ι → Patch Cell Value) (tells : ι → (Cell → Value) → Trace I → Except F α → Prop)
    (effect : ∀ i s, J s →
      let run := (program i).exec kernel (s,own i)
      J run.state.1 ∧ view run.state.1 = (patch i).apply (view s) ∧ tells i (view s) run.trace run.outcome)
    (holds : J s) (schedule : List ι) :
    let after := interleave weight kernel schedule (start program own s)
    ∃ turns, Linear program own s weight kernel schedule turns ∧
      view after.shared = (Patch.last (turns.map patch)).apply (view s) ∧
      ∀ before i later, turns = before ++ i :: later → ∀ outcome, (after.member i).program.result = some outcome →
        tells i ((Patch.last (before.map patch)).apply (view s)) (after.member i).trace outcome := by
  intro after
  obtain ⟨shared,served⟩ : after.shared = inTurn kernel program own s after.turns ∧ _ := interleave_served isolated single schedule
  have stores (turns : List ι) := inTurn_store (fun i s held => ⟨(effect i s held).1,(effect i s held).2.1⟩) holds turns
  refine ⟨after.turns,interleave_linear isolated single schedule,?_,?_⟩
  · rw [shared]
    exact (stores _).2
  · intro before i later split outcome ended
    obtain ⟨trace,returned⟩ := served before i later split outcome ended
    obtain ⟨held,found⟩ := stores before
    have told := (effect i _ held).2.2
    rw [found,trace,returned] at told
    exact told

end Linear
end Crowd

def Kernel.split {I : Interface} (parts : σ ≃ S × L) (kernel : Kernel I σ) : Kernel I (S × L) := fun c s =>
  ((kernel c (parts.symm s)).1,parts (kernel c (parts.symm s)).2)

theorem Prog.exec_split {I : Interface} (parts : σ ≃ S × L) (kernel : Kernel I σ) (program : Prog I F α) (s : S × L) :
    program.exec (kernel.split parts) s =
      ⟨(program.exec kernel (parts.symm s)).trace,(program.exec kernel (parts.symm s)).outcome,
        parts (program.exec kernel (parts.symm s)).state⟩ := by
  induction program generalizing s with
  | done value => simp
  | fault reason => simp
  | call c next ih => simp only [exec_call,Kernel.split,ih,Equiv.symm_apply_apply]

end Interaction
