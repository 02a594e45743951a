import Mathlib.Tactic.Common

namespace Interaction

-- Requests a program may put to its environment, and the answers each request
-- may get. The answer type depends on the request, so a reply of the wrong
-- shape cannot be built.
structure Interface where
  Call : Type
  Answer : Call → Type

structure Event (I : Interface) where
  call : I.Call
  answer : I.Answer call

abbrev Trace (I : Interface) := List (Event I)

-- A terminating computation over an interface. `fault` marks the point where
-- the modelled code would leave its defined behaviour.
inductive Prog (I : Interface) (F α : Type) where
  | done (value : α)
  | fault (reason : F)
  | call (request : I.Call) (next : I.Answer request → Prog I F α)

namespace Prog

def bind (program : Prog I F α) (next : α → Prog I F β) : Prog I F β :=
  match program with
  | .done value => next value
  | .fault reason => .fault reason
  | .call request rest => .call request (fun answer => (rest answer).bind next)

instance : Monad (Prog I F) where
  pure := .done
  bind := bind

@[simp] theorem pure_eq (value : α) : (pure value : Prog I F α) = .done value := rfl
@[simp] theorem done_bind (value : α) (next : α → Prog I F β) : (Prog.done value >>= next) = next value := rfl
@[simp] theorem fault_bind (reason : F) (next : α → Prog I F β) :
    ((Prog.fault reason : Prog I F α) >>= next) = .fault reason := rfl
@[simp] theorem call_bind (c : I.Call) (rest : I.Answer c → Prog I F α) (next : α → Prog I F β) :
    (Prog.call c rest >>= next) = .call c (fun answer => rest answer >>= next) := rfl

theorem bind_assoc (program : Prog I F α) (first : α → Prog I F β) (second : β → Prog I F γ) :
    ((program >>= first) >>= second) = (program >>= fun value => first value >>= second) := by
  induction program with
  | done value => rfl
  | fault reason => rfl
  | call c rest ih => simp only [call_bind]; congr 1; funext answer; exact ih answer

end Prog

-- An environment is any function from requests and its own private state to
-- answers; quantifying over kernels quantifies over every outcome of every call.
abbrev Kernel (I : Interface) (σ : Type) := (c : I.Call) → σ → I.Answer c × σ

structure Run (I : Interface) (F α σ : Type) where
  trace : Trace I
  outcome : Except F α
  state : σ

def Run.prepend (before : Trace I) (run : Run I F α σ) : Run I F α σ :=
  ⟨before ++ run.trace,run.outcome,run.state⟩

@[simp] theorem Run.prepend_trace (before : Trace I) (run : Run I F α σ) :
    (run.prepend before).trace = before ++ run.trace := rfl
@[simp] theorem Run.prepend_outcome (before : Trace I) (run : Run I F α σ) :
    (run.prepend before).outcome = run.outcome := rfl
@[simp] theorem Run.prepend_state (before : Trace I) (run : Run I F α σ) :
    (run.prepend before).state = run.state := rfl

theorem Run.prepend_prepend (first second : Trace I) (run : Run I F α σ) :
    (run.prepend second).prepend first = run.prepend (first ++ second) := by
  simp only [Run.prepend,List.append_assoc]

namespace Prog

def exec (kernel : Kernel I σ) : Prog I F α → σ → Run I F α σ
  | .done value,s => ⟨[],.ok value,s⟩
  | .fault reason,s => ⟨[],.error reason,s⟩
  | .call c next,s =>
    let reply := kernel c s
    let rest := (next reply.1).exec kernel reply.2
    ⟨⟨c,reply.1⟩ :: rest.trace,rest.outcome,rest.state⟩

variable {kernel : Kernel I σ}

@[simp] theorem exec_done (value : α) (s : σ) :
    (Prog.done value : Prog I F α).exec kernel s = ⟨[],.ok value,s⟩ := rfl
@[simp] theorem exec_fault (reason : F) (s : σ) :
    (Prog.fault reason : Prog I F α).exec kernel s = ⟨[],.error reason,s⟩ := rfl
theorem exec_call (c : I.Call) (next : I.Answer c → Prog I F α) (s : σ) :
    (Prog.call c next).exec kernel s =
      ⟨⟨c,(kernel c s).1⟩ :: ((next (kernel c s).1).exec kernel (kernel c s).2).trace,
        ((next (kernel c s).1).exec kernel (kernel c s).2).outcome,
        ((next (kernel c s).1).exec kernel (kernel c s).2).state⟩ := rfl

theorem exec_bind (program : Prog I F α) (next : α → Prog I F β) (s : σ) :
    (program >>= next).exec kernel s =
      match (program.exec kernel s).outcome with
      | .error reason => ⟨(program.exec kernel s).trace,.error reason,(program.exec kernel s).state⟩
      | .ok value =>
        let rest := (next value).exec kernel (program.exec kernel s).state
        ⟨(program.exec kernel s).trace ++ rest.trace,rest.outcome,rest.state⟩ := by
  induction program generalizing s with
  | done value => rfl
  | fault reason => rfl
  | call c rest ih =>
    simp only [call_bind,exec_call]
    rw [ih]
    cases ((rest (kernel c s).1).exec kernel (kernel c s).2).outcome <;> rfl

-- Symbolic execution: one request with a known answer, or a whole first part
-- with a known run.
theorem exec_step {c : I.Call} {answer : I.Answer c} (answers : kernel c s = (answer,s'))
    (next : I.Answer c → Prog I F α) :
    (Prog.call c next).exec kernel s = ((next answer).exec kernel s').prepend [⟨c,answer⟩] := by
  simp [exec_call,answers,Run.prepend]

theorem exec_seq {program : Prog I F α} (first : program.exec kernel s = ⟨trace,.ok value,s'⟩)
    (next : α → Prog I F β) : (program >>= next).exec kernel s = ((next value).exec kernel s').prepend trace := by
  rw [exec_bind,first]
  rfl

theorem exec_after {program other : Prog I F α} (first : program.exec kernel s = (other.exec kernel s').prepend trace)
    (next : α → Prog I F β) : (program >>= next).exec kernel s = ((other >>= next).exec kernel s').prepend trace := by
  rw [exec_bind,exec_bind,first]
  cases outcome : (other.exec kernel s').outcome with
  | error reason => simp [outcome,Run.prepend]
  | ok value => simp [outcome,Run.prepend]

-- `p.All Q`: whatever the environment answers, the trace and the outcome
-- satisfy `Q`. It is computed from the program, so it needs no kernel.
def All : Prog I F α → (Trace I → Except F α → Prop) → Prop
  | .done value,Q => Q [] (.ok value)
  | .fault reason,Q => Q [] (.error reason)
  | .call c next,Q => ∀ answer, (next answer).All (fun trace outcome => Q (⟨c,answer⟩ :: trace) outcome)

@[simp] theorem all_done (value : α) (Q : Trace I → Except F α → Prop) :
    (Prog.done value : Prog I F α).All Q ↔ Q [] (.ok value) := Iff.rfl
@[simp] theorem all_fault (reason : F) (Q : Trace I → Except F α → Prop) :
    (Prog.fault reason : Prog I F α).All Q ↔ Q [] (.error reason) := Iff.rfl
@[simp] theorem all_call (c : I.Call) (next : I.Answer c → Prog I F α) (Q : Trace I → Except F α → Prop) :
    (Prog.call c next).All Q ↔
      ∀ answer, (next answer).All (fun trace outcome => Q (⟨c,answer⟩ :: trace) outcome) := Iff.rfl

theorem All.mono {program : Prog I F α} (holds : program.All P)
    (implies : ∀ trace outcome, P trace outcome → Q trace outcome) : program.All Q := by
  induction program generalizing P Q with
  | done value => exact implies _ _ holds
  | fault reason => exact implies _ _ holds
  | call c next ih => exact fun answer => ih answer (holds answer) (fun trace outcome => implies _ _)

theorem All.and {program : Prog I F α} (left : program.All P) (right : program.All Q) :
    program.All (fun trace outcome => P trace outcome ∧ Q trace outcome) := by
  induction program generalizing P Q with
  | done value => exact ⟨left,right⟩
  | fault reason => exact ⟨left,right⟩
  | call c next ih => exact fun answer => ih answer (left answer) (right answer)

theorem all_bind {program : Prog I F α} {next : α → Prog I F β} {Q : Trace I → Except F β → Prop} :
    (program >>= next).All Q ↔ program.All (fun trace outcome =>
      match outcome with
      | .error reason => Q trace (.error reason)
      | .ok value => (next value).All (fun later final => Q (trace ++ later) final)) := by
  induction program generalizing Q with
  | done value => simp
  | fault reason => simp
  | call c rest ih =>
    simp only [call_bind,all_call,List.cons_append]
    exact forall_congr' (fun answer => ih answer)

theorem All.bind {program : Prog I F α} {next : α → Prog I F β} (first : program.All P)
    (stops : ∀ trace reason, P trace (.error reason) → Q trace (.error reason))
    (goes : ∀ trace value, P trace (.ok value) →
      (next value).All (fun later outcome => Q (trace ++ later) outcome)) : (program >>= next).All Q := by
  refine all_bind.mpr (first.mono ?_)
  intro trace outcome holds
  cases outcome with
  | error reason => exact stops trace reason holds
  | ok value => exact goes trace value holds

-- Soundness: a property of all answers holds of the run under every kernel.
theorem All.exec {program : Prog I F α} (holds : program.All Q) (kernel : Kernel I σ) (s : σ) :
    Q (program.exec kernel s).trace (program.exec kernel s).outcome := by
  induction program generalizing Q s with
  | done value => exact holds
  | fault reason => exact holds
  | call c next ih => exact ih (kernel c s).1 (holds (kernel c s).1) (kernel c s).2

theorem exec_events {program : Prog I F α} {kernel : Kernel I σ} {P : Event I → Prop}
    (lawful : ∀ c s, P ⟨c,(kernel c s).1⟩) (s : σ) : ∀ e ∈ (program.exec kernel s).trace, P e := by
  induction program generalizing s with
  | done value => simp
  | fault reason => simp
  | call c next ih =>
    intro e member
    rcases List.mem_cons.mp member with rfl | later
    · exact lawful c s
    · exact ih (kernel c s).1 (kernel c s).2 e later

def each (xs : List α) (body : α → Prog I F Unit) : Prog I F Unit :=
  xs.foldr (fun x rest => body x >>= fun _ => rest) (pure ())

@[simp] theorem each_nil (body : α → Prog I F Unit) : each [] body = .done () := rfl
@[simp] theorem each_cons (x : α) (xs : List α) (body : α → Prog I F Unit) :
    each (x :: xs) body = (body x >>= fun _ => each xs body) := rfl

theorem each_append (xs ys : List α) (body : α → Prog I F Unit) :
    each (xs ++ ys) body = (each xs body >>= fun _ => each ys body) := by
  induction xs with
  | nil => rfl
  | cons x xs ih => simp only [List.cons_append,each_cons,ih,bind_assoc]

theorem each_flatMap (xs : List α) (f : α → List β) (body : β → Prog I F Unit) :
    each (xs.flatMap f) body = each xs (fun x => each (f x) body) := by
  induction xs with
  | nil => rfl
  | cons x xs ih => simp only [List.flatMap_cons,each_append,each_cons,ih]

theorem each_keeps {kernel : Kernel I σ} {J : σ → Prop} {body : α → Prog I F Unit} (xs : List α)
    (round : ∀ x ∈ xs, ∀ s, J s → J ((body x).exec kernel s).state) (s : σ) (holds : J s) :
    J ((each xs body).exec kernel s).state := by
  induction xs generalizing s with
  | nil => exact holds
  | cons x xs ih =>
    have first := round x (by simp) s holds
    rw [each_cons,exec_bind]
    split
    · exact first
    · exact ih (fun y member => round y (by simp [member])) _ first

theorem each_returns {kernel : Kernel I σ} {body : α → Prog I F Unit} (xs : List α)
    (round : ∀ x s, ((body x).exec kernel s).outcome = .ok ()) (s : σ) :
    ((each xs body).exec kernel s).outcome = .ok () := by
  induction xs generalizing s with
  | nil => rfl
  | cons x xs ih => rw [each_cons,exec_bind,round]; exact ih _

-- What one round brings about and every later round keeps, holds after the loop.
theorem each_establishes {kernel : Kernel I σ} {J K : σ → Prop} {body : α → Prog I F Unit} {xs : List α} {x : α}
    (member : x ∈ xs) (returns : ∀ y s, ((body y).exec kernel s).outcome = .ok ())
    (before : ∀ y s, K s → K ((body y).exec kernel s).state)
    (brings : ∀ s, K s → J ((body x).exec kernel s).state)
    (after : ∀ y s, J s → J ((body y).exec kernel s).state) (s : σ) (holds : K s) :
    J ((each xs body).exec kernel s).state := by
  induction xs generalizing s with
  | nil => cases member
  | cons y xs ih =>
    rw [each_cons,exec_bind,returns]
    rcases List.mem_cons.mp member with rfl | tail
    · exact each_keeps xs (fun z _ => after z) _ (brings s holds)
    · exact ih tail _ (before y s holds)

end Prog

section Safety
variable {good : Event I → Prop} {fine : F → Prop}

-- Every event of every run is good, and only tolerated faults can stop it.
-- Unlike `All`, it mentions no trace, so it composes without bookkeeping.
def Prog.Safe (good : Event I → Prop) (fine : F → Prop) : Prog I F α → Prop
  | .done _ => True
  | .fault reason => fine reason
  | .call c next => ∀ answer, good ⟨c,answer⟩ ∧ (next answer).Safe good fine

@[simp] theorem Prog.safe_done (value : α) : (Prog.done value : Prog I F α).Safe good fine := trivial
@[simp] theorem Prog.safe_fault (reason : F) :
    (Prog.fault reason : Prog I F α).Safe good fine ↔ fine reason := Iff.rfl
@[simp] theorem Prog.safe_call (c : I.Call) (next : I.Answer c → Prog I F α) :
    (Prog.call c next).Safe good fine ↔ ∀ answer, good ⟨c,answer⟩ ∧ (next answer).Safe good fine := Iff.rfl

theorem Prog.safe_ite (c : Prop) [Decidable c] (left right : Prog I F α) :
    (if c then left else right).Safe good fine ↔ (c → left.Safe good fine) ∧ (¬ c → right.Safe good fine) := by
  split
  · rename_i holds
    simp [holds]
  · rename_i fails
    simp [fails]

theorem Prog.Safe.bind {program : Prog I F α} {next : α → Prog I F β} (first : program.Safe good fine)
    (rest : ∀ value, (next value).Safe good fine) : (program >>= next).Safe good fine := by
  induction program with
  | done value => exact rest value
  | fault reason => exact first
  | call c following ih => exact fun answer => ⟨(first answer).1,ih answer (first answer).2⟩

theorem Prog.each_safe {body : α → Prog I F Unit} (xs : List α) (round : ∀ x ∈ xs, (body x).Safe good fine) :
    (Prog.each xs body).Safe good fine := by
  induction xs with
  | nil => trivial
  | cons x xs ih =>
    apply Prog.Safe.bind (round x (by simp))
    intro _
    exact ih (fun y member => round y (by simp [member]))

theorem Prog.Safe.mono {program : Prog I F α} (safe : program.Safe good fine) {good' : Event I → Prop} {fine' : F → Prop}
    (events : ∀ e, good e → good' e) (faults : ∀ reason, fine reason → fine' reason) : program.Safe good' fine' := by
  induction program with
  | done value => trivial
  | fault reason => exact faults reason safe
  | call c next ih => exact fun answer => ⟨events _ (safe answer).1,ih answer (safe answer).2⟩

theorem Prog.Safe.all {program : Prog I F α} (safe : program.Safe good fine) :
    program.All (fun trace outcome => (∀ event ∈ trace, good event) ∧
      ∀ reason, outcome = .error reason → fine reason) := by
  induction program with
  | done value => simp
  | fault reason =>
    refine ⟨by simp,?_⟩
    rintro _ ⟨⟩
    exact safe
  | call c next ih =>
    intro answer
    refine (ih answer (safe answer).2).mono (fun trace outcome later => ⟨?_,later.2⟩)
    intro event member
    rcases List.mem_cons.mp member with rfl | tail
    · exact (safe answer).1
    · exact later.1 event tail

end Safety

section Monitor
-- A monitor follows a trace with a state of its own; `none` where an event
-- breaks its discipline.
variable (step : Event I → S → Option S)

def monitor : Trace I → S → Option S
  | [],s => some s
  | e :: rest,s => (step e s).bind (monitor rest)

@[simp] theorem monitor_nil (s : S) : monitor step [] s = some s := rfl
theorem monitor_cons (e : Event I) (rest : Trace I) (s : S) :
    monitor step (e :: rest) s = (step e s).bind (monitor step rest) := rfl

theorem monitor_append (left right : Trace I) (s : S) :
    monitor step (left ++ right) s = (monitor step left s).bind (monitor step right) := by
  induction left generalizing s with
  | nil => rfl
  | cons e rest ih =>
    rw [List.cons_append,monitor_cons,monitor_cons,Option.bind_assoc]
    congr 1
    funext s'
    exact ih s'

-- Every run that returns keeps the discipline and ends as `post` says.
def Prog.Tracks (program : Prog I F α) (s : S) (post : α → Trace I → S → Prop) : Prop :=
  program.All (fun trace outcome => ∀ value, outcome = .ok value →
    ∃ s', monitor step trace s = some s' ∧ post value trace s')

variable {step} {s : S} {program : Prog I F α}

theorem Prog.tracks_done {value : α} {post : α → Trace I → S → Prop} (holds : post value [] s) :
    (Prog.done value : Prog I F α).Tracks step s post := by
  intro value' returned
  cases returned
  exact ⟨s,rfl,holds⟩

theorem Prog.tracks_fault (reason : F) (post : α → Trace I → S → Prop) : (Prog.fault reason : Prog I F α).Tracks step s post := by
  intro value returned
  cases returned

theorem Prog.tracks_call {c : I.Call} {next : I.Answer c → Prog I F α} {post : α → Trace I → S → Prop}
    (then_ : ∀ answer, ∃ s', step ⟨c,answer⟩ s = some s' ∧
      (next answer).Tracks step s' (fun value trace s' => post value (⟨c,answer⟩ :: trace) s')) :
    (Prog.call c next).Tracks step s post := by
  intro answer
  obtain ⟨s',stepped,rest⟩ := then_ answer
  refine rest.mono ?_
  intro trace outcome ends value returned
  obtain ⟨final,followed,holds⟩ := ends value returned
  exact ⟨final,by rw [monitor_cons,stepped]; exact followed,holds⟩

theorem Prog.Tracks.mono {post post' : α → Trace I → S → Prop} (tracks : program.Tracks step s post)
    (implies : ∀ value trace s', post value trace s' → post' value trace s') : program.Tracks step s post' := by
  refine All.mono tracks ?_
  intro trace outcome ends value returned
  obtain ⟨final,followed,holds⟩ := ends value returned
  exact ⟨final,followed,implies value trace final holds⟩

theorem Prog.Tracks.bind {next : α → Prog I F β} {mid : α → Trace I → S → Prop} {post : β → Trace I → S → Prop}
    (first : program.Tracks step s mid)
    (rest : ∀ value trace s', mid value trace s' →
      (next value).Tracks step s' (fun value later s' => post value (trace ++ later) s')) :
    (program >>= next).Tracks step s post := by
  apply All.bind first
  · intro trace reason _ value returned
    cases returned
  · intro trace value ends
    obtain ⟨s',followed,holds⟩ := ends value rfl
    refine All.mono (rest value trace s' holds) ?_
    intro later outcome ends' value' returned
    obtain ⟨final,followed',holds'⟩ := ends' value' returned
    refine ⟨final,?_,holds'⟩
    rw [monitor_append,followed]
    exact followed'

theorem Prog.Safe.tracks {fine : F → Prop} (safe : program.Safe (fun e => step e s = some s) fine) :
    program.Tracks step s (fun _ _ s' => s' = s) := by
  induction program with
  | done value => exact tracks_done rfl
  | fault reason => exact tracks_fault reason _
  | call c next ih => exact tracks_call (fun answer => ⟨s,(safe answer).1,ih answer (safe answer).2⟩)

end Monitor

end Interaction
