import Iotools.Interaction

namespace Interaction

-- What an operation gives the cells of a store; `none` where it leaves a cell
-- alone.
abbrev Patch (Cell Value : Type) := Cell → Option Value

namespace Patch
variable {Cell Value : Type}

def apply (patch : Patch Cell Value) (store : Cell → Value) : Cell → Value := fun cell => (patch cell).getD (store cell)

def idle : Patch Cell Value := fun _ => none

-- The last operation that touches a cell decides what it holds.
def last : List (Patch Cell Value) → Patch Cell Value
  | [] => idle
  | first :: rest => fun cell => (last rest cell).or (first cell)

@[simp] theorem apply_idle (store : Cell → Value) : (idle : Patch Cell Value).apply store = store := rfl
@[simp] theorem last_nil : last ([] : List (Patch Cell Value)) = idle := rfl

theorem last_cons (first : Patch Cell Value) (rest : List (Patch Cell Value)) (store : Cell → Value) :
    (last (first :: rest)).apply store = (last rest).apply (first.apply store) := by
  funext cell
  simp only [apply,last]
  cases last rest cell <;> rfl

theorem last_untouched {patches : List (Patch Cell Value)} (untouched : ∀ patch ∈ patches, patch cell = none) (store : Cell → Value) :
    (last patches).apply store cell = store cell := by
  induction patches generalizing store with
  | nil => rfl
  | cons first rest ih =>
    have kept : first.apply store cell = store cell := by rw [apply,untouched first (by simp)]; rfl
    rw [last_cons,ih (fun patch member => untouched patch (by simp [member])),kept]

theorem last_written {before later : List (Patch Cell Value)} {patch : Patch Cell Value} (gives : patch cell = some value)
    (untouched : ∀ other ∈ later, other cell = none) (store : Cell → Value) :
    (last (before ++ patch :: later)).apply store cell = value := by
  induction before generalizing store with
  | nil =>
    have now : patch.apply store cell = value := by rw [apply,gives]; rfl
    rw [List.nil_append,last_cons,last_untouched untouched,now]
  | cons first rest ih => rw [List.cons_append,last_cons,ih]

end Patch

namespace Prog
variable {kernel : Kernel I σ}

-- Programs run one after the other, each where the one before it left the
-- environment.
def session (kernel : Kernel I σ) : List (Prog I F α) → σ → σ
  | [],s => s
  | program :: rest,s => session kernel rest (program.exec kernel s).state

@[simp] theorem session_nil (s : σ) : session kernel ([] : List (Prog I F α)) s = s := rfl
@[simp] theorem session_cons (program : Prog I F α) (rest : List (Prog I F α)) (s : σ) :
    session kernel (program :: rest) s = session kernel rest (program.exec kernel s).state := rfl

section Store
variable {Cell Value C : Type} (J : σ → Prop) (view : σ → Cell → Value) {program : C → Prog I F α} {patch : C → Patch Cell Value}

-- Where every command keeps the invariant and changes the store as its patch
-- says, a whole session leaves in every cell what was given to it last.
theorem session_store {commands : List C}
    (step : ∀ c ∈ commands, ∀ s, J s →
      J ((program c).exec kernel s).state ∧ view ((program c).exec kernel s).state = (patch c).apply (view s))
    (s : σ) (holds : J s) :
    J (session kernel (commands.map program) s) ∧
    view (session kernel (commands.map program) s) = (Patch.last (commands.map patch)).apply (view s) := by
  induction commands generalizing s with
  | nil => exact ⟨holds,rfl⟩
  | cons c rest ih =>
    obtain ⟨kept,changed⟩ := step c (by simp) s holds
    obtain ⟨ends,stores⟩ := ih (fun d member => step d (by simp [member])) _ kept
    refine ⟨ends,?_⟩
    rw [List.map_cons,List.map_cons,session_cons,stores,changed,Patch.last_cons]

end Store

theorem exec_view {program : Prog I F α} (view : σ → β) {s : σ}
    (kept : ∀ c s', (⟨c,(kernel c s').1⟩ : Event I) ∈ (program.exec kernel s).trace → view (kernel c s').2 = view s') :
    view (program.exec kernel s).state = view s := by
  induction program generalizing s with
  | done value => rfl
  | fault reason => rfl
  | call c next ih =>
    rw [exec_call] at kept ⊢
    refine (ih (kernel c s).1 (s := (kernel c s).2) fun c' s' member => kept c' s' (by simp [member])).trans ?_
    exact kept c s (by simp)

-- A program that asks only what leaves the environment as it is, is answered
-- every time as it would be at the start.
theorem Safe.still {program : Prog I F α} {good : Event I → Prop} {fine : F → Prop} (safe : program.Safe good fine) {s : σ}
    (still : ∀ c, good ⟨c,(kernel c s).1⟩ → (kernel c s).2 = s) :
    (program.exec kernel s).state = s ∧ ∀ e ∈ (program.exec kernel s).trace, e.answer = (kernel e.call s).1 := by
  induction program with
  | done value => exact ⟨rfl,by simp⟩
  | fault reason => exact ⟨rfl,by simp⟩
  | call c next ih =>
    obtain ⟨good,later⟩ := safe (kernel c s).1
    obtain ⟨state,answers⟩ := ih (kernel c s).1 later
    rw [exec_call,still c good]
    refine ⟨state,fun e member => ?_⟩
    rcases List.mem_cons.mp member with rfl | tail
    · rfl
    · exact answers e tail

end Prog

section Numbers
variable {I : Interface} (mark : I.Call → Nat) {trace : Trace I}

-- The numbers of the marked requests of a trace, the first of all being `first`.
def callNumbers (first : Nat) (trace : Trace I) : List Nat :=
  ((trace.zipIdx first).filter (fun request => mark request.1.call ≠ 0)).map Prod.snd

@[simp] theorem callNumbers_nil (first : Nat) : callNumbers mark first ([] : Trace I) = [] := rfl

theorem callNumbers_cons (first : Nat) (e : Event I) (rest : Trace I) :
    callNumbers mark first (e :: rest) = (if mark e.call = 0 then [] else [first]) ++ callNumbers mark (first + 1) rest := by
  by_cases idle : mark e.call = 0
  · simp [callNumbers,List.zipIdx_cons,idle]
  · simp [callNumbers,List.zipIdx_cons,idle]

theorem callNumbers_concat (first : Nat) (trace : Trace I) (e : Event I) :
    callNumbers mark first (trace ++ [e]) = callNumbers mark first trace ++ if mark e.call = 0 then [] else [first + trace.length] := by
  induction trace generalizing first with
  | nil => simp [callNumbers_cons]
  | cons other rest ih =>
    rw [List.cons_append,callNumbers_cons,callNumbers_cons,ih,List.length_cons,List.append_assoc,Nat.add_right_comm,Nat.add_assoc first]

theorem mem_callNumbers {mark : I.Call → Nat} : n ∈ callNumbers mark first trace ↔ ∃ e, (e,n) ∈ trace.zipIdx first ∧ mark e.call ≠ 0 := by
  simp [callNumbers]

theorem mem_numbered {e : Event I} (member : e ∈ trace) (first : Nat) : ∃ n, (e,n) ∈ trace.zipIdx first := by
  obtain ⟨i,found⟩ := List.getElem?_of_mem member
  exact ⟨first + i,List.mk_add_mem_zipIdx_iff_getElem?.mpr found⟩

-- Every request was answered when the clock showed its number.
def Numbered (kernel : Kernel I σ) (clock : σ → Nat) (first : Nat) (trace : Trace I) : Prop :=
  ∀ e n, (e,n) ∈ trace.zipIdx first → ∃ s, clock s = n ∧ e.answer = (kernel e.call s).1

theorem Prog.exec_numbered {kernel : Kernel I σ} {clock : σ → Nat} (ticks : ∀ c s, clock (kernel c s).2 = clock s + 1)
    (program : Prog I F α) (s : σ) : Numbered kernel clock (clock s) (program.exec kernel s).trace := by
  induction program generalizing s with
  | done value => simp [Numbered]
  | fault reason => simp [Numbered]
  | call c next ih =>
    have answers := ih (kernel c s).1 (kernel c s).2
    rw [ticks] at answers
    intro e n member
    rw [exec_call,List.zipIdx_cons] at member
    rcases List.mem_cons.mp member with now | later
    · cases now
      exact ⟨s,rfl,rfl⟩
    · exact answers e n later

end Numbers

end Interaction
