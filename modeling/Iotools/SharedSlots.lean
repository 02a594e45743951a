import Iotools.Interleavings

namespace Interaction
namespace Crowd
variable {ι : Type} {I : Interface} {weight : I.Call → Nat} {kernel : Kernel I (S × L)}

section Begun
variable {program : ι → Prog I F α} {own : ι → L} {s : S} {rely : Event I → Prop} {crowd : Crowd ι I F α S L}

-- What has happened to a member and what it will still do is a run of its
-- program, and the answers it got are such as the kernel gives.
structure Begun (program : ι → Prog I F α) (rely : Event I → Prop) (crowd : Crowd ι I F α S L) : Prop where
  remains : ∀ i P, (program i).All P →
    (crowd.member i).program.All (fun trace outcome => P ((crowd.member i).trace ++ trace) outcome)
  lawful : ∀ i, ∀ e ∈ (crowd.member i).trace, rely e

theorem start_begun (program : ι → Prog I F α) (own : ι → L) (s : S) (rely : Event I → Prop) :
    Begun program rely (start program own s) where
  remains := fun i P holds => holds
  lawful := by
    intro i e member
    cases member

section Lawful
variable [DecidableEq ι] (lawful : ∀ c s, rely ⟨c,(kernel c s).1⟩) (begun : Begun program rely crowd)
include lawful begun

theorem Begun.advance (i : ι) : Begun program rely (crowd.advance weight kernel i) := by
  constructor
  · intro j P holds
    have before := begun.remains j P holds
    by_cases here : j = i
    · subst here
      simp only [advance_self]
      cases waits : (crowd.member j).program with
      | call c next =>
        rw [waits] at before
        simpa only [Prog.step,List.append_assoc,List.singleton_append] using before _
      | _ =>
        rw [waits] at before
        simpa only [Prog.step,List.append_nil] using before
    · simpa only [advance_other here] using before
  · intro j e member
    by_cases here : j = i
    · subst here
      simp only [advance_self,List.mem_append] at member
      rcases member with earlier | now
      · exact begun.lawful j e earlier
      · cases waits : (crowd.member j).program with
        | call c next =>
          rw [waits] at now
          rw [List.mem_singleton.mp now]
          exact lawful c _
        | _ =>
          rw [waits] at now
          cases now
    · rw [advance_other here] at member
      exact begun.lawful j e member

theorem Begun.interleave (schedule : List ι) : Begun program rely (crowd.interleave weight kernel schedule) := by
  induction schedule generalizing crowd with
  | nil => exact begun
  | cons i rest ih => exact ih (begun.advance lawful i)

end Lawful

theorem Begun.waits (lawful : ∀ c s, rely ⟨c,(kernel c s).1⟩) (begun : Begun program rely crowd)
    {good : I.Call → Prop} {i : ι} {c : I.Call} {next : I.Answer c → Prog I F α}
    (promised : (program i).All (fun trace _ => (∀ e ∈ trace, rely e) → ∀ e ∈ trace, good e.call))
    (waits : (crowd.member i).program = .call c next) : good c := by
  have remains := begun.remains i _ promised
  rw [waits] at remains
  have state := (crowd.shared,(crowd.member i).own)
  have run := Prog.All.exec remains kernel state
  refine run ?_ ⟨c,(kernel c state).1⟩ (List.mem_append_right _ List.mem_cons_self)
  intro e member
  rcases List.mem_append.mp member with earlier | later
  · exact begun.lawful i e earlier
  · exact Prog.exec_events lawful state e later

theorem Begun.ended (begun : Begun program rely crowd) {P : Trace I → Except F α → Prop} {i : ι} {outcome : Except F α}
    (promised : (program i).All (fun trace outcome => (∀ e ∈ trace, rely e) → P trace outcome))
    (ended : (crowd.member i).program.result = some outcome) : P (crowd.member i).trace outcome := by
  have remains := begun.remains i _ promised
  cases program : (crowd.member i).program with
  | call c next =>
    rw [program] at ended
    cases ended
  | _ =>
    rw [program] at ended remains
    cases ended
    have whole := remains
    simp only [Prog.All,List.append_nil] at whole
    exact whole (begun.lawful i)

end Begun

section Marks
variable [DecidableEq ι] (weight) (kernel) (mark : I.Call → Nat)

-- The members in the order of their marked requests, each as often as it made one.
def marks : List ι → Crowd ι I F α S L → List ι
  | [],_ => []
  | i :: rest,crowd =>
    (if (crowd.member i).program.asks mark = 0 then [] else [i]) ++ marks rest (advance weight kernel crowd i)

variable {weight} {kernel} {mark} (crowd : Crowd ι I F α S L)

theorem marks_append (first second : List ι) :
    marks weight kernel mark (first ++ second) crowd =
      marks weight kernel mark first crowd ++ marks weight kernel mark second (interleave weight kernel first crowd) := by
  induction first generalizing crowd with
  | nil => rfl
  | cons i rest ih =>
    change _ ++ marks weight kernel mark (rest ++ second) _ = (_ ++ _) ++ _
    rw [ih,List.append_assoc]
    rfl

theorem advance_ended_stays {i j : ι} (ended : (crowd.member j).program.result ≠ none) :
    ((advance weight kernel crowd i).member j).program.result ≠ none := by
  by_cases here : j = i
  · subst here
    simp only [advance_self]
    cases waits : (crowd.member j).program with
    | call c next =>
      rw [waits] at ended
      exact absurd rfl ended
    | _ => simp [Prog.step,Prog.result]
  · simpa only [advance_other here] using ended

theorem marks_open (schedule : List ι) {i : ι} (marked : i ∈ marks weight kernel mark schedule crowd) :
    i ∈ schedule ∧ (crowd.member i).program.result = none := by
  induction schedule generalizing crowd with
  | nil => cases marked
  | cons j rest ih =>
    rcases List.mem_append.mp marked with now | later
    · by_cases idle : (crowd.member j).program.asks mark = 0
      · rw [if_pos idle] at now
        cases now
      · rw [if_neg idle] at now
        cases List.mem_singleton.mp now
        refine ⟨by simp,?_⟩
        cases waits : (crowd.member i).program with
        | call c next => rfl
        | _ =>
          rw [waits] at idle
          exact absurd rfl idle
    · obtain ⟨moved,running⟩ := ih _ later
      refine ⟨by simp [moved],?_⟩
      by_contra ended
      exact advance_ended_stays crowd ended running

theorem marks_trace (schedule : List ι) {i : ι}
    (marked : weighed mark ((interleave weight kernel schedule crowd).member i).trace ≠ 0) :
    weighed mark (crowd.member i).trace ≠ 0 ∨ i ∈ marks weight kernel mark schedule crowd := by
  induction schedule generalizing crowd with
  | nil => exact .inl marked
  | cons j rest ih =>
    rcases ih (advance weight kernel crowd j) marked with before | later
    · by_cases here : i = j
      · subst here
        simp only [advance_self,weighed_append] at before
        by_cases idle : (crowd.member i).program.asks mark = 0
        · left
          cases waits : (crowd.member i).program with
          | call c next =>
            rw [waits] at before idle
            change _ + (mark c + 0) ≠ 0 at before
            change mark c = 0 at idle
            omega
          | _ =>
            rw [waits] at before
            exact before
        · right
          exact List.mem_append_left _ (by rw [if_neg idle]; simp)
      · left
        simpa only [advance_other here] using before
    · exact .inr (List.mem_append_right _ later)

theorem interleave_still (schedule : List ι) {i : ι} (still : i ∉ schedule) :
    (interleave weight kernel schedule crowd).member i = crowd.member i := by
  induction schedule generalizing crowd with
  | nil => rfl
  | cons j rest ih =>
    rw [List.mem_cons,not_or] at still
    have kept : (advance weight kernel crowd j).member i = crowd.member i := by
      rw [advance_other still.1]
    exact (ih _ still.2).trans kept

-- Where a schedule is cut, the marks are: what had ended by then is not marked
-- behind the cut, what had not begun is not marked before it.
def Timely (program : ι → Prog I F α) (own : ι → L) (s : S) (weight : I.Call → Nat) (kernel : Kernel I (S × L))
    (schedule marks : List ι) : Prop :=
  ∀ first second, schedule = first ++ second → ∃ early late, marks = early ++ late ∧ (∀ i ∈ early, i ∈ first) ∧
    ∀ i ∈ late, i ∈ second ∧ ((interleave weight kernel first (start program own s)).member i).program.result = none

theorem marks_timely (program : ι → Prog I F α) (own : ι → L) (s : S) (schedule : List ι) :
    Timely program own s weight kernel schedule (marks weight kernel mark schedule (start program own s)) := by
  rintro first second rfl
  refine ⟨_,_,marks_append _ first second,?_,?_⟩
  · exact fun i marked => (marks_open _ first marked).1
  · exact fun i marked => marks_open _ second marked

variable (weight) (kernel) (mark) in
-- The marked requests in order, each with the own state its member made it from.
def attempts : List ι → Crowd ι I F α S L → List (ι × L)
  | [],_ => []
  | i :: rest,crowd =>
    (if (crowd.member i).program.asks mark = 0 then [] else [(i,(crowd.member i).own)]) ++
      attempts rest (advance weight kernel crowd i)

theorem attempts_members (schedule : List ι) :
    (attempts weight kernel mark schedule crowd).map Prod.fst = marks weight kernel mark schedule crowd := by
  induction schedule generalizing crowd with
  | nil => rfl
  | cons i rest ih =>
    rw [attempts,marks,List.map_append,ih]
    split <;> rfl

end Marks

-- Members whose own state counts their requests.
structure Clocked (kernel : Kernel I (S × L)) (clock : L → Nat) (first : ι → Nat) (crowd : Crowd ι I F α S L) : Prop where
  count : ∀ i, clock (crowd.member i).own = first i + (crowd.member i).trace.length
  numbered : ∀ i, Numbered kernel (fun s => clock s.2) (first i) (crowd.member i).trace

theorem start_clocked (kernel : Kernel I (S × L)) (clock : L → Nat) (program : ι → Prog I F α) (own : ι → L) (s : S) :
    Clocked kernel clock (fun i => clock (own i)) (start program own s) where
  count := fun _ => rfl
  numbered := by
    intro i e n member
    cases member

section Clock
variable [DecidableEq ι] {clock : L → Nat} {first : ι → Nat} {crowd : Crowd ι I F α S L}
  (ticks : ∀ c s, clock (kernel c s).2.2 = clock s.2 + 1) (clocked : Clocked kernel clock first crowd)
include ticks clocked

theorem Clocked.advance (i : ι) : Clocked kernel clock first (crowd.advance weight kernel i) := by
  constructor
  · intro j
    by_cases here : j = i
    · subst here
      simp only [advance_self]
      cases waits : (crowd.member j).program with
      | call c next =>
        simp only [Prog.step,ticks,clocked.count,List.length_append,List.length_singleton,Nat.add_assoc]
      | _ => simpa only [Prog.step,List.append_nil] using clocked.count j
    · simpa only [advance_other here] using clocked.count j
  · intro j
    by_cases here : j = i
    · subst here
      simp only [advance_self]
      cases waits : (crowd.member j).program with
      | call c next =>
        intro e n member
        rw [Prog.step,List.zipIdx_append] at member
        rcases List.mem_append.mp member with earlier | now
        · exact clocked.numbered j e n earlier
        · cases List.mem_singleton.mp now
          exact ⟨(crowd.shared,(crowd.member j).own),clocked.count j,rfl⟩
      | _ => simpa only [Prog.step,List.append_nil] using clocked.numbered j
    · simpa only [advance_other here] using clocked.numbered j

theorem Clocked.interleave (schedule : List ι) : Clocked kernel clock first (crowd.interleave weight kernel schedule) := by
  induction schedule generalizing crowd with
  | nil => exact clocked
  | cons i rest ih => exact ih (clocked.advance ticks i)

-- The attempts of one member are the marked requests of its trace, by number.
theorem Clocked.attempts (mark : I.Call → Nat) (schedule : List ι) (i : ι) :
    callNumbers mark (first i) (crowd.member i).trace ++
        ((attempts weight kernel mark schedule crowd).filter (fun attempt => attempt.1 = i)).map (fun attempt => clock attempt.2) =
      callNumbers mark (first i) ((crowd.interleave weight kernel schedule).member i).trace := by
  induction schedule generalizing crowd with
  | nil => exact List.append_nil _
  | cons j rest ih =>
    refine Eq.trans ?_ (ih (clocked.advance ticks j))
    rw [Crowd.attempts,List.filter_append,List.map_append,← List.append_assoc]
    congr 1
    by_cases here : i = j
    · subst here
      simp only [advance_self]
      cases waits : (crowd.member i).program with
      | call c next =>
        rw [Prog.step,callNumbers_concat]
        by_cases idle : mark c = 0
        · simp [Prog.asks,idle]
        · simp [Prog.asks,idle,clocked.count]
      | _ => simp [Prog.step,Prog.asks]
    · rw [advance_other here]
      split
      · simp
      · simp [Ne.symm here]

end Clock

section Slots
variable [DecidableEq ι] {mark : I.Call → Nat} {program : ι → Prog I F α} {rely : Event I → Prop}
  {good : ι → I.Call → Prop} {crowd : Crowd ι I F α S L}

theorem marks_good (lawful : ∀ c s, rely ⟨c,(kernel c s).1⟩)
    (promised : ∀ i, (program i).All (fun trace _ => (∀ e ∈ trace, rely e) → ∀ e ∈ trace, good i e.call))
    (begun : Begun program rely crowd) (schedule : List ι) {i : ι} (marked : i ∈ marks weight kernel mark schedule crowd) :
    ∃ c, good i c ∧ mark c ≠ 0 := by
  induction schedule generalizing crowd with
  | nil => cases marked
  | cons j rest ih =>
    rcases List.mem_append.mp marked with now | later
    · by_cases idle : (crowd.member j).program.asks mark = 0
      · rw [if_pos idle] at now
        cases now
      · rw [if_neg idle] at now
        cases List.mem_singleton.mp now
        cases waits : (crowd.member i).program with
        | call c next =>
          rw [waits] at idle
          exact ⟨c,begun.waits lawful (promised i) waits,idle⟩
        | _ =>
          rw [waits] at idle
          exact absurd rfl idle
    · exact ih (begun.advance lawful j) later

-- A slot of what is shared has gone through the acts of the marked members in
-- their order, less those that were not granted.
theorem interleave_slot (lawful : ∀ c s, rely ⟨c,(kernel c s).1⟩)
    (promised : ∀ i, (program i).All (fun trace _ => (∀ e ∈ trace, rely e) → ∀ e ∈ trace, good i e.call))
    (view : S → V) (act : ι → V → V) (granted : L → Bool)
    (quiet : ∀ c s, mark c = 0 → view (kernel c s).2.1 = view s.1)
    (acts : ∀ i c s, good i c → mark c ≠ 0 → view (kernel c s).2.1 = if granted s.2 then act i (view s.1) else view s.1)
    (begun : Begun program rely crowd) (schedule : List ι) :
    view (interleave weight kernel schedule crowd).shared =
      ((attempts weight kernel mark schedule crowd).filter (fun attempt => granted attempt.2)).foldl
        (fun slot attempt => act attempt.1 slot) (view crowd.shared) := by
  induction schedule generalizing crowd with
  | nil => rfl
  | cons i rest ih =>
    refine (ih (begun.advance lawful i)).trans ?_
    have shared : (advance weight kernel crowd i).shared =
        ((crowd.member i).program.step kernel (crowd.shared,(crowd.member i).own)).2.2.1 := rfl
    rw [shared,attempts]
    cases waits : (crowd.member i).program with
    | done value => simp [Prog.step,Prog.asks]
    | fault reason => simp [Prog.step,Prog.asks]
    | call c next =>
      by_cases idle : mark c = 0
      · simp [Prog.step,Prog.asks,idle,quiet]
      · have acted := acts i c (crowd.shared,(crowd.member i).own) (begun.waits lawful (promised i) waits) idle
        by_cases allowed : granted (crowd.member i).own = true
        · simp [Prog.step,Prog.asks,idle,acted,allowed]
        · simp [Prog.step,Prog.asks,idle,acted,allowed]

end Slots
end Crowd
end Interaction
