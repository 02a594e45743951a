import Iotools.Interaction

namespace Interaction

-- What a program and its environment owe each other, along a ledger that
-- follows the events: what the program may rely on in an answer, what it
-- guarantees of every request, and the faults it may end in.
structure Contract (I : Interface) (F S : Type) where
  step : S → Event I → S
  rely : S → Event I → Prop
  guarantee : S → I.Call → Prop
  fine : F → Prop

namespace Contract
variable (k : Contract I F S)

def after (s : S) (trace : Trace I) : S := trace.foldl k.step s

def Relied : S → Trace I → Prop
  | _,[] => True
  | s,e :: rest => k.rely s e ∧ Relied (k.step s e) rest

def Guaranteed : S → Trace I → Prop
  | _,[] => True
  | s,e :: rest => k.guarantee s e.call ∧ Guaranteed (k.step s e) rest

@[simp] theorem after_nil (s : S) : k.after s [] = s := rfl
@[simp] theorem after_cons (s : S) (e : Event I) (rest : Trace I) : k.after s (e :: rest) = k.after (k.step s e) rest := rfl
@[simp] theorem relied_nil (s : S) : k.Relied s [] := trivial
@[simp] theorem relied_cons (s : S) (e : Event I) (rest : Trace I) :
    k.Relied s (e :: rest) ↔ k.rely s e ∧ k.Relied (k.step s e) rest := Iff.rfl
@[simp] theorem guaranteed_nil (s : S) : k.Guaranteed s [] := trivial
@[simp] theorem guaranteed_cons (s : S) (e : Event I) (rest : Trace I) :
    k.Guaranteed s (e :: rest) ↔ k.guarantee s e.call ∧ k.Guaranteed (k.step s e) rest := Iff.rfl

theorem relied_of_events (lawful : ∀ s, ∀ e ∈ trace, k.rely s e) (s : S) : k.Relied s trace := by
  induction trace generalizing s with
  | nil => trivial
  | cons e rest ih => exact ⟨lawful s e (by simp),ih (fun s' e' member => lawful s' e' (by simp [member])) _⟩

theorem guaranteed_events {P : I.Call → Prop} (implies : ∀ s c, k.guarantee s c → P c) (kept : k.Guaranteed s trace) :
    ∀ e ∈ trace, P e.call := by
  induction trace generalizing s with
  | nil => simp
  | cons e rest ih =>
    intro e' member
    rcases List.mem_cons.mp member with rfl | later
    · exact implies _ _ kept.1
    · exact ih kept.2 e' later

-- Every request was permitted by the ledger of the events before it.
theorem guaranteed_split {before later : Trace I} {e : Event I} (kept : k.Guaranteed s (before ++ e :: later)) :
    k.guarantee (k.after s before) e.call := by
  induction before generalizing s with
  | nil => exact kept.1
  | cons first rest ih => exact ih kept.2

-- A ledger is a summary of the trace: what every event adds to it holds at the end.
theorem after_invariant {J : S → Trace I → Prop} (start : J s [])
    (step : ∀ s trace e, J s trace → J (k.step s e) (trace ++ [e])) (trace : Trace I) : J (k.after s trace) trace := by
  have general : ∀ before s, J s before → J (k.after s trace) (before ++ trace) := by
    induction trace with
    | nil => intro before s holds; simpa using holds
    | cons e rest ih => intro before s holds; simpa using ih _ _ (step s before e holds)
  exact general [] s start

end Contract

section Contracts
variable {k : Contract I F S} {post : α → S → Prop} {s : S}

-- The condition on the ledger under which a program keeps its side of the
-- contract and returns as `post` says, whatever the environment answers.
def Prog.Meets (k : Contract I F S) : Prog I F α → (α → S → Prop) → S → Prop
  | .done value,post,s => post value s
  | .fault reason,_,_ => k.fine reason
  | .call c next,post,s =>
    k.guarantee s c ∧ ∀ answer, k.rely s ⟨c,answer⟩ → (next answer).Meets k post (k.step s ⟨c,answer⟩)

@[simp] theorem Prog.meets_done (value : α) : (Prog.done value : Prog I F α).Meets k post s ↔ post value s := Iff.rfl
@[simp] theorem Prog.meets_fault (reason : F) : (Prog.fault reason : Prog I F α).Meets k post s ↔ k.fine reason := Iff.rfl
@[simp] theorem Prog.meets_call (c : I.Call) (next : I.Answer c → Prog I F α) :
    (Prog.call c next).Meets k post s ↔
      k.guarantee s c ∧ ∀ answer, k.rely s ⟨c,answer⟩ → (next answer).Meets k post (k.step s ⟨c,answer⟩) := Iff.rfl

theorem Prog.Meets.mono {program : Prog I F α} {post' : α → S → Prop} (meets : program.Meets k post s)
    (implies : ∀ value s', post value s' → post' value s') : program.Meets k post' s := by
  induction program generalizing s with
  | done value => exact implies _ _ meets
  | fault reason => exact meets
  | call c next ih => exact ⟨meets.1,fun answer relied => ih answer (meets.2 answer relied)⟩

-- Rule of composition: what follows starts where the first part returned.
theorem Prog.Meets.bind {program : Prog I F α} {next : α → Prog I F β} {mid : α → S → Prop} {post : β → S → Prop}
    (first : program.Meets k mid s) (rest : ∀ value s', mid value s' → (next value).Meets k post s') :
    (program >>= next).Meets k post s := by
  induction program generalizing s with
  | done value => exact rest _ _ first
  | fault reason => exact first
  | call c following ih => exact ⟨first.1,fun answer relied => ih answer (first.2 answer relied)⟩

theorem Prog.each_meets {inv : S → Prop} {body : α → Prog I F Unit} (xs : List α)
    (round : ∀ x ∈ xs, ∀ s, inv s → (body x).Meets k (fun _ s' => inv s') s) (s : S) (holds : inv s) :
    (Prog.each xs body).Meets k (fun _ s' => inv s') s := by
  induction xs generalizing s with
  | nil => exact holds
  | cons x xs ih =>
    have rest := ih (fun y member => round y (by simp [member]))
    exact (round x (by simp) s holds).bind (fun _ s' kept => rest s' kept)

theorem Prog.all_intro (program : Prog I F α) {Q : Trace I → Except F α → Prop} (holds : ∀ trace outcome, Q trace outcome) :
    program.All Q := by
  induction program generalizing Q with
  | done value => exact holds _ _
  | fault reason => exact holds _ _
  | call c next ih => exact fun answer => ih answer (fun trace outcome => holds _ _)

-- Soundness: as long as the answers are as relied on, every request is as
-- guaranteed, and the end is as the contract says.
theorem Prog.Meets.all {program : Prog I F α} (meets : program.Meets k post s) :
    program.All (fun trace outcome => k.Relied s trace → k.Guaranteed s trace ∧
      (∀ value, outcome = .ok value → post value (k.after s trace)) ∧
      ∀ reason, outcome = .error reason → k.fine reason) := by
  induction program generalizing s with
  | done value =>
    refine fun _ => ⟨trivial,?_,?_⟩
    · intro _ returned
      cases returned
      exact meets
    · intro _ never
      cases never
  | fault reason =>
    refine fun _ => ⟨trivial,?_,?_⟩
    · intro _ never
      cases never
    · intro _ stopped
      cases stopped
      exact meets
  | call c next ih =>
    intro answer
    have later (relied : k.rely s ⟨c,answer⟩) := ih answer (meets.2 answer relied)
    by_cases relied : k.rely s ⟨c,answer⟩
    · refine (later relied).mono ?_
      intro trace outcome ends both
      obtain ⟨kept,returns⟩ := ends both.2
      exact ⟨⟨meets.1,kept⟩,returns⟩
    · exact Prog.all_intro _ (fun _ _ both => absurd both.1 relied)

end Contracts

end Interaction
