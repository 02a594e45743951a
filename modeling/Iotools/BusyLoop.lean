import Mathlib.Data.List.Basic
import Iotools.MmioAccess

namespace Iotools
open Numeral Interaction

def exactElapsed (t0 t1 : Int × Int) : Int := (t1.1 - t0.1) * 1000000 + (t1.2 - t0.2)

-- A check of the loop: the reading it measures from, the reading it takes, and
-- whether a line was printed.
structure ClockCheck where
  t0 : Int × Int
  t1 : Int × Int
  counted : Bool
  deriving DecidableEq

def checksFrom : Int × Int → Trace Sys → List ClockCheck
  | t0,⟨.gettimeofday,t1⟩ :: ⟨.stdout _,_⟩ :: ⟨.gettimeofday,next⟩ :: rest => ⟨t0,t1,true⟩ :: checksFrom next rest
  | t0,⟨.gettimeofday,t1⟩ :: rest => ⟨t0,t1,false⟩ :: checksFrom t0 rest
  | _,_ => []

def checksOf : Trace Sys → List ClockCheck
  | ⟨.gettimeofday,t0⟩ :: rest => checksFrom t0 rest
  | _ => []

-- The code's elapsed time is the exact one, modulo 2^32.
theorem toUnsigned_mod (value : Int) : (toUnsigned value : Int) = value % 2 ^ 32 := by
  unfold toUnsigned
  omega

theorem elapsed_exact (t0 t1 : Int × Int) : (elapsed t0 t1 : Int) = exactElapsed t0 t1 % 2 ^ 32 := by
  rw [elapsed,toUnsigned_mod,toUnsigned_mod,Int.emod_add_emod]
  rfl

def ClockFits (t0 t1 : Int × Int) : Prop :=
  (0 ≤ exactElapsed t0 t1 ∧ exactElapsed t0 t1 < 2 ^ 32) ∨
  (exactElapsed t0 t1 < 0 ∧ exactElapsed t0 t1 % 2 ^ 32 < 1000000) ∨
  (2 ^ 32 ≤ exactElapsed t0 t1 ∧ 1000000 ≤ exactElapsed t0 t1 % 2 ^ 32)

theorem clockFits_iff (t0 t1 : Int × Int) :
    (1000000 ≤ elapsed t0 t1 ↔ 1000000 ≤ exactElapsed t0 t1) ↔ ClockFits t0 t1 := by
  have same := elapsed_exact t0 t1
  unfold ClockFits
  omega

-- What a run of the loop may look like: it takes no line for a check before one
-- was made.
def Unprinted (trace : Trace Sys) : Prop := ∀ e ∈ trace.head?, ∀ text, e.call ≠ .stdout text

theorem checksFrom_passed (t0 t1 : Int × Int) (unprinted : Unprinted later) :
    checksFrom t0 (⟨.gettimeofday,t1⟩ :: later) = ⟨t0,t1,false⟩ :: checksFrom t0 later := by
  cases later with
  | nil => rfl
  | cons e rest =>
    obtain ⟨c,answer⟩ := e
    cases c with
    | stdout text => exact absurd rfl (unprinted _ rfl text)
    | _ => rfl

def Timed (t0 : Int × Int) (trace : Trace Sys) : Prop :=
  Unprinted trace ∧ ∀ check ∈ checksFrom t0 trace, check.counted = decide (1000000 ≤ elapsed check.t0 check.t1)

theorem timed_nil (t0 : Int × Int) : Timed t0 [] := ⟨by simp [Unprinted],by simp [checksFrom]⟩

theorem timed_counted {t0 t1 : Int × Int} (reached : 1000000 ≤ elapsed t0 t1) (text : Text) (reply : Unit)
    (timed : Timed next later) :
    Timed t0 (⟨.gettimeofday,t1⟩ :: ⟨.stdout text,reply⟩ :: ⟨.gettimeofday,next⟩ :: later) := by
  refine ⟨by simp [Unprinted],?_⟩
  intro check member
  rcases List.mem_cons.mp member with rfl | rest
  · simp [reached]
  · exact timed.2 check rest

theorem timed_passed {t0 t1 : Int × Int} (early : ¬ 1000000 ≤ elapsed t0 t1) (timed : Timed t0 later) :
    Timed t0 (⟨.gettimeofday,t1⟩ :: later) := by
  refine ⟨by simp [Unprinted],?_⟩
  rw [checksFrom_passed t0 t1 timed.1]
  intro check member
  rcases List.mem_cons.mp member with rfl | rest
  · simp [early]
  · exact timed.2 check rest

theorem busyRounds_over (fuel count : Nat) (t0 : Int × Int) (all : printed_ = reps) :
    busyRounds reps (fuel + 1) count printed_ t0 = .done 0 := by simp [busyRounds,all]

theorem busyRounds_check (fuel count : Nat) (t0 : Int × Int) (more : printed_ ≠ reps)
    (due : (count + 1) % 2 ^ 64 % 16384 = 0) :
    busyRounds reps (fuel + 1) count printed_ t0 = .call .gettimeofday fun t1 =>
      if 1000000 ≤ elapsed t0 t1 then
        .call (.stdout (decimal ((count + 1) % 2 ^ 64 : Nat) ++ "\n".toList)) fun _ => .call .gettimeofday fun next =>
          busyRounds reps fuel 0 (if reps ≠ -1 then toInt (printed_ + 1) else printed_) next
      else busyRounds reps fuel ((count + 1) % 2 ^ 64) printed_ t0 := by
  simp only [busyRounds,more,due,if_false,if_true,Prog.call_bind,Prog.done_bind]

theorem busyRounds_counts (fuel count : Nat) (t0 : Int × Int) (more : printed_ ≠ reps)
    (undue : (count + 1) % 2 ^ 64 % 16384 ≠ 0) :
    busyRounds reps (fuel + 1) count printed_ t0 = busyRounds reps fuel ((count + 1) % 2 ^ 64) printed_ t0 := by
  simp only [busyRounds,more,undue,if_false]

-- One line for each check that reaches a second: by induction on the rounds.
theorem busyRounds_timed (reps : Int) (fuel count : Nat) (printed_ : Int) (t0 : Int × Int) :
    (busyRounds reps fuel count printed_ t0).All (fun trace _ => Timed t0 trace) := by
  induction fuel generalizing count printed_ t0 with
  | zero => exact timed_nil t0
  | succ fuel ih =>
    by_cases all : printed_ = reps
    · rw [busyRounds_over fuel count t0 all]
      exact timed_nil t0
    · by_cases due : (count + 1) % 2 ^ 64 % 16384 = 0
      · rw [busyRounds_check fuel count t0 all due]
        intro (t1 : Int × Int)
        dsimp only
        by_cases reached : 1000000 ≤ elapsed t0 t1
        · rw [if_pos reached]
          intro reply (next : Int × Int)
          exact (ih _ _ next).mono (fun _ _ timed => timed_counted reached _ reply timed)
        · rw [if_neg reached]
          exact (ih _ printed_ t0).mono (fun _ _ timed => timed_passed reached timed)
      · rw [busyRounds_counts fuel count t0 all due]
        exact ih _ printed_ t0

def lineCount (text : Text) : Nat := text.count '\n'

theorem lineCount_append (left right : Text) : lineCount (left ++ right) = lineCount left + lineCount right :=
  List.count_append

theorem lineCount_decimal (value : Int) : lineCount (decimal value ++ "\n".toList) = 1 := by
  have digits : lineCount (decimal value) = 0 := List.count_eq_zero.mpr (decimal_plain value rfl (by decide))
  rw [lineCount_append,digits]
  rfl

-- The state of a loop that has ended: the lines that were missing are printed,
-- counted modulo 2^32, and reps was not -1.
def Counted (reps printed_ : Int) (trace : Trace Sys) (outcome : Except Fault Int) : Prop :=
  ∀ code, outcome = .ok code →
    code = 0 ∧ (lineCount (printed trace) : Int) = (reps - printed_) % 2 ^ 32 ∧ (reps = -1 → printed_ = -1)

theorem lineCount_round (t1 next : Int × Int) (count : Int) (reply : Unit) (later : Trace Sys) :
    lineCount (printed (⟨.gettimeofday,t1⟩ :: ⟨.stdout (decimal count ++ "\n".toList),reply⟩ ::
      ⟨.gettimeofday,next⟩ :: later)) = 1 + lineCount (printed later) := by
  have clock (reading : Int × Int) : output ⟨.gettimeofday,reading⟩ = [] := rfl
  simp only [printed_cons,clock,output_stdout,List.nil_append]
  rw [lineCount_append,lineCount_decimal]

theorem counted_round {reps printed_ next : Int} (range : -(2 ^ 31) ≤ reps ∧ reps < 2 ^ 31)
    (range' : -(2 ^ 31) ≤ printed_ ∧ printed_ < 2 ^ 31) (more : printed_ ≠ reps)
    (step : next = if reps ≠ -1 then toInt (printed_ + 1) else printed_) :
    (-(2 ^ 31) ≤ next ∧ next < 2 ^ 31) ∧ ((reps = -1 → next = -1) →
      reps ≠ -1 ∧ 1 + (reps - next) % 2 ^ 32 = (reps - printed_) % 2 ^ 32) := by
  unfold toInt at step
  by_cases endless : reps = -1
  · rw [if_neg (by simp [endless])] at step
    subst step
    refine ⟨range',fun gets => ?_⟩
    exact absurd ((gets endless).trans endless.symm) more
  · rw [if_pos endless] at step
    omega

theorem busyRounds_lines (reps : Int) (fuel count : Nat) (printed_ : Int) (t0 : Int × Int)
    (range : -(2 ^ 31) ≤ reps ∧ reps < 2 ^ 31) (range' : -(2 ^ 31) ≤ printed_ ∧ printed_ < 2 ^ 31) :
    (busyRounds reps fuel count printed_ t0).All (Counted reps printed_) := by
  induction fuel generalizing count printed_ t0 with
  | zero =>
    intro code ended
    cases ended
  | succ fuel ih =>
    by_cases all : printed_ = reps
    · rw [busyRounds_over fuel count t0 all]
      intro code ended
      cases ended
      refine ⟨rfl,?_,fun endless => all.trans endless⟩
      rw [all]
      simp [lineCount]
    · by_cases due : (count + 1) % 2 ^ 64 % 16384 = 0
      · rw [busyRounds_check fuel count t0 all due]
        intro (t1 : Int × Int)
        dsimp only
        by_cases reached : 1000000 ≤ elapsed t0 t1
        · rw [if_pos reached]
          intro reply (next : Int × Int)
          obtain ⟨within,closer⟩ := counted_round range range' all rfl
          apply (ih 0 _ next within).mono
          intro trace outcome counted code ended
          obtain ⟨returned,lines,gets⟩ := counted code ended
          obtain ⟨ends,step⟩ := closer gets
          refine ⟨returned,?_,fun endless => absurd endless ends⟩
          rw [lineCount_round,Nat.cast_add,lines]
          exact step
        · rw [if_neg reached]
          exact ih _ printed_ t0 range'
      · rw [busyRounds_counts fuel count t0 all due]
        exact ih _ printed_ t0 range'

-- atoi of the argument.
def busyReps (b : Build) (text : Text) : Int := toInt (strtolLong b 10 text).1

theorem busyReps_range (b : Build) (text : Text) : -(2 ^ 31) ≤ busyReps b text ∧ busyReps b text < 2 ^ 31 := by
  unfold busyReps toInt
  omega

def RepsFit (b : Build) (number : Int) : Prop :=
  match b.long with
  | .w32 => number < 2 ^ 31
  | .w64 => number < 2 ^ 32

theorem busyReps_fit (b : Build) (whole : wholeValue 10 text = some number) (natural : 0 ≤ number)
    (ends : busyReps b text ≠ -1) : busyReps b text % 2 ^ 32 = number ↔ RepsFit b number := by
  revert ends
  unfold busyReps strtolLong
  rw [strtol_whole whole]
  unfold RepsFit toInt
  cases long : b.long with
  | w32 =>
    simp only [WordSize.bits]
    omega
  | w64 =>
    simp only [WordSize.bits]
    omega

theorem miscCmds_busyLoop (b : Build) (member : info ∈ miscCmds b) (entry : info.entry = .busyLoop) : info.params = none := by
  rcases List.mem_append.mp member with machine | common
  · split at machine
    · simp only [List.mem_cons,List.not_mem_nil,or_false] at machine
      rcases machine with rfl | rfl
      · rfl
      · cases entry
    · cases machine
  · simp only [List.mem_cons,List.not_mem_nil,or_false] at common
    rcases common with rfl | rfl | rfl
    · rfl
    · rfl
    · cases entry

theorem busyLoop_call (b : Build) (fuel : Nat) (member : info ∈ miscCmds b) (entry : info.entry = .busyLoop)
    (argv : List Arg) : runInfo b fuel argv info = busyLoop b fuel argv info := by
  have params := miscCmds_busyLoop b member entry
  rw [runInfo_admitted b fuel (by simp [params]) (by simp [Admits,params]),entry]
  rfl

theorem busyLoop_given (b : Build) (fuel : Nat) (name arg : Arg) (info : CmdInfo) :
    busyLoop b fuel [name,arg] info = .call .gettimeofday fun t0 => busyRounds (busyReps b arg.text) fuel 0 0 t0 := rfl

theorem busyLoop_rounds (b : Build) (fuel : Nat) (argv : List Arg) (info : CmdInfo) :
    ∃ reps, busyLoop b fuel argv info = .call .gettimeofday fun t0 => busyRounds reps fuel 0 0 t0 := by
  by_cases two : argv.length = 2
  · obtain ⟨name,arg,rfl⟩ := List.length_eq_two.mp two
    exact ⟨_,busyLoop_given b fuel name arg info⟩
  · exact ⟨-1,by simp [busyLoop,two]⟩

theorem busyLoop_timed (b : Build) (fuel : Nat) (argv : List Arg) (info : CmdInfo) :
    (busyLoop b fuel argv info).All (fun trace _ => ∀ check ∈ checksOf trace,
      check.counted = decide (1000000 ≤ elapsed check.t0 check.t1)) := by
  obtain ⟨reps,rounds⟩ := busyLoop_rounds b fuel argv info
  rw [rounds]
  intro (t0 : Int × Int)
  exact (busyRounds_timed reps fuel 0 0 t0).mono (fun _ _ timed => timed.2)

theorem busyLoop_lines (b : Build) (fuel : Nat) (name arg : Arg) (info : CmdInfo) :
    (busyLoop b fuel [name,arg] info).All (fun trace outcome => ∀ code, outcome = .ok code →
      busyReps b arg.text ≠ -1 ∧ (lineCount (printed trace) : Int) = busyReps b arg.text % 2 ^ 32) := by
  rw [busyLoop_given]
  intro (t0 : Int × Int)
  apply (busyRounds_lines _ fuel 0 0 t0 (busyReps_range b arg.text) (by decide)).mono
  intro trace outcome counted code ended
  obtain ⟨_,lines,gets⟩ := counted code ended
  rw [Int.sub_zero] at lines
  refine ⟨fun endless => ?_,lines⟩
  cases gets endless

-- In every run, each check decides as the exact time does exactly when its two
-- readings fit; and a loop that ends after a number was given has printed that
-- many lines exactly when atoi keeps it.
theorem busy_loop_iff (b : Build) (fuel : Nat) (info : CmdInfo) (member : info ∈ miscCmds b)
    (entry : info.entry = .busyLoop) (argv : List Arg) (kernel : Kernel Sys σ) (s : σ) :
    let run := (runInfo b fuel argv info).exec kernel s
    ((∀ check ∈ checksOf run.trace, check.counted = true ↔ 1000000 ≤ exactElapsed check.t0 check.t1) ↔
      ∀ check ∈ checksOf run.trace, ClockFits check.t0 check.t1) ∧
    ∀ (name arg : Arg) (number : Int), argv = [name,arg] → wholeValue 10 arg.text = some number → 0 ≤ number →
      ∀ code, run.outcome = .ok code → (lineCount (printed run.trace) = number ↔ RepsFit b number) := by
  intro run
  have runs : run = (busyLoop b fuel argv info).exec kernel s := by
    simp only [run]
    rw [busyLoop_call b fuel member entry argv]
  constructor
  · have timed : ∀ check ∈ checksOf run.trace, check.counted = decide (1000000 ≤ elapsed check.t0 check.t1) := by
      rw [runs]
      exact (busyLoop_timed b fuel argv info).exec kernel s
    apply forall₂_congr
    intro check there
    rw [timed check there,decide_eq_true_eq]
    exact clockFits_iff check.t0 check.t1
  · intro name arg number given whole natural code ended
    subst given
    rw [runs] at ended ⊢
    obtain ⟨ends,lines⟩ := (busyLoop_lines b fuel name arg info).exec kernel s code ended
    rw [lines]
    exact busyReps_fit b whole natural ends

theorem busyRounds_until (fuel count rounds : Nat) (t0 : Int × Int) (more : printed_ ≠ reps)
    (early : count + rounds < 16384) :
    busyRounds reps (fuel + rounds) count printed_ t0 = busyRounds reps fuel (count + rounds) printed_ t0 := by
  induction rounds generalizing count with
  | zero => rfl
  | succ rounds ih =>
    have small : (count + 1) % 2 ^ 64 = count + 1 := Nat.mod_eq_of_lt (by omega)
    have undue : (count + 1) % 2 ^ 64 % 16384 ≠ 0 := by omega
    rw [← Nat.add_assoc,busyRounds_counts (fuel + rounds) count t0 more undue,small,ih (count + 1) (by omega)]
    congr 1
    omega

def busyLoopInfo : CmdInfo := makeCmd "busy_loop" .busyLoop .null

-- A machine with a clock that shows these readings, one after the other.
def ticking (clock : Nat → Int × Int) : Kernel Sys Nat := fun c n =>
  match c with
  | .gettimeofday => (clock n,n + 1)
  | c => (c.succeeds,n)

theorem busyLoop_once (clock : Nat → Int × Int) (reached : 1000000 ≤ elapsed (clock 0) (clock 1)) :
    let run := (runInfo .x86_64 16385 (["busy_loop","1"].map Arg.of) busyLoopInfo).exec (ticking clock) 0
    run.trace = [⟨.gettimeofday,clock 0⟩,⟨.gettimeofday,clock 1⟩,⟨.stdout "16384\n".toList,()⟩,⟨.gettimeofday,clock 2⟩] ∧
    run.outcome = .ok 0 := by
  have reps : busyReps .x86_64 (Arg.of "1").text = 1 := by decide +kernel
  have text : decimal (((16383 + 1) % 2 ^ 64 : Nat) : Int) ++ "\n".toList = "16384\n".toList := by decide +kernel
  have rounds (t0 : Int × Int) : busyRounds 1 16385 0 0 t0 = .call .gettimeofday fun t1 =>
      if 1000000 ≤ elapsed t0 t1 then
        .call (.stdout "16384\n".toList) fun _ => .call .gettimeofday fun _ => .done 0
      else busyRounds 1 1 ((16383 + 1) % 2 ^ 64) 0 t0 := by
    rw [busyRounds_until 2 0 16383 t0 (by decide) (by decide),busyRounds_check 1 (0 + 16383) t0 (by decide) (by decide),text]
    have stops (next : Int × Int) : busyRounds 1 1 0 (if (1 : Int) ≠ -1 then toInt (0 + 1) else 0) next = .done 0 :=
      busyRounds_over 0 0 next (by decide)
    simp only [stops]
  intro run
  have whole : run = (Prog.call .gettimeofday fun t0 => busyRounds 1 16385 0 0 t0 : Action Int).exec (ticking clock) 0 := by
    simp only [run]
    rw [busyLoop_call .x86_64 16385 (by decide) rfl,List.map_cons,List.map_cons,List.map_nil,busyLoop_given,reps]
  rw [whole]
  simp only [rounds,Prog.exec_call,ticking,reached,if_true]
  exact ⟨rfl,rfl⟩

theorem busy_loop_iff_second :
    let run := (runInfo .x86_64 16385 (["busy_loop","1"].map Arg.of) busyLoopInfo).exec
      (ticking fun n => ((n : Int),0)) 0
    (∀ check ∈ checksOf run.trace, check.counted = true ↔ 1000000 ≤ exactElapsed check.t0 check.t1) ∧
    lineCount (printed run.trace) = 1 := by
  intro run
  obtain ⟨trace,ended⟩ := busyLoop_once (fun n => ((n : Int),0)) (by decide)
  have exact_ := busy_loop_iff .x86_64 16385 busyLoopInfo (by decide) rfl (["busy_loop","1"].map Arg.of)
    (ticking fun n => ((n : Int),0)) 0
  refine ⟨exact_.1.mpr ?_,?_⟩
  · rw [trace]
    intro check member
    rcases List.mem_singleton.mp member with rfl
    exact .inl (by decide)
  · have lines := (exact_.2 (Arg.of "busy_loop") (Arg.of "1") 1 rfl (by decide) (by decide) 0 ended).mpr
      (show (1 : Int) < 2 ^ 32 by decide)
    exact Int.ofNat.inj lines

-- A clock that is set back by a microsecond counts as more than an hour, and
-- 2^32 lines are no lines.
theorem busy_loop_backward :
    let clock : Nat → Int × Int := fun n => if n = 0 then (1,0) else (0,999999)
    let back := (runInfo .x86_64 16385 (["busy_loop","1"].map Arg.of) busyLoopInfo).exec (ticking clock) 0
    let many := (runInfo .x86_64 1 (["busy_loop","4294967296"].map Arg.of) busyLoopInfo).exec smooth ()
    (¬ ∀ check ∈ checksOf back.trace, check.counted = true ↔ 1000000 ≤ exactElapsed check.t0 check.t1) ∧
    wholeValue 10 "4294967296".toList = some 4294967296 ∧ many.outcome = .ok 0 ∧ lineCount (printed many.trace) = 0 := by
  intro clock back many
  obtain ⟨trace,_⟩ := busyLoop_once clock (by decide)
  refine ⟨?_,by decide,by decide +kernel,by decide +kernel⟩
  rw [trace]
  intro exact_
  exact absurd ((exact_ ⟨(1,0),(0,999999),true⟩ (List.mem_singleton.mpr rfl)).mp rfl) (by decide)

end Iotools
