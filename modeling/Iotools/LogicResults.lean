import Iotools.BitCommands

namespace Iotools
open Numeral Interaction

def ZeroFlag (run : Run Sys Fault Int σ) : Prop :=
  ∃ value, printed run.trace = hexLine value ∧ run.outcome = .ok (flag (value = 0))

theorem zeroFlag_iff {run : Run Sys Fault Int σ} (text : printed run.trace = hexLine value) (returned : run.outcome = .ok code) :
    ZeroFlag run ↔ code = flag (value = 0) := by
  constructor
  · rintro ⟨other,line,same⟩
    rw [text,hexLine_inj] at line
    subst line
    exact Except.ok.inj (returned.symm.trans same)
  · intro same
    exact ⟨value,text,by rw [returned,same]⟩

theorem logicArgs_cases (admitted : Admits (some logicOpParams) argv) :
    ∃ name first rest, argv = name :: first :: rest ∧ rest.length + 2 ≤ intMax := by
  obtain ⟨least,most⟩ := admitted logicOpParams rfl
  match argv,least,most with
  | name :: first :: rest,_,most => exact ⟨name,first,rest,rfl,most⟩

theorem logicCmds_not : ∀ info ∈ logicCmds, info.entry = .not → info.params = some notParams := by decide

theorem not_run (b : Build) (fuel : Nat) (member : info ∈ logicCmds) (entry : info.entry = .not) (name value : Arg) :
    runInfo b fuel [name,value] info =
      logicResult (2 ^ 64 - 1 - operand value) (flag (2 ^ 64 - 1 - operand value = 0)) := by
  have params := logicCmds_not info member entry
  have admitted : Admits info.params [name,value] := by
    rw [params]
    rintro _ ⟨⟩
    exact ⟨le_refl 2,le_refl 2⟩
  have noIopl : ∀ p ∈ info.params, p.ioplNeeded = 0 := by
    rw [params]
    rintro _ ⟨⟩
    rfl
  rw [runInfo_admitted b fuel noIopl admitted,entry]
  rfl

-- The params admit a single operand, for which the loop that sets the code does
-- not run.
theorem zero_flag_iff (b : Build) (fuel : Nat) (info : CmdInfo) (member : info ∈ logicCmds) (argv : List Arg)
    (admitted : Admits info.params argv) (kernel : Kernel Sys σ) (s : σ) :
    (∀ op : LogicOp, op.Folds → info.privdata = .logicInfo op →
      (ZeroFlag ((runInfo b fuel argv info).exec kernel s) ↔
        argv.length ≠ 2 ∨ ∀ only, argv[1]? = some only → operand only ≠ 0)) ∧
    (info.entry = .not → ZeroFlag ((runInfo b fuel argv info).exec kernel s)) := by
  constructor
  · intro op folds held
    obtain ⟨_,params⟩ := logicCmds_folds info member (by
      rw [held]
      rcases folds with rfl | rfl | rfl <;> simp)
    rw [params] at admitted
    obtain ⟨name,first,rest,rfl,count⟩ := logicArgs_cases admitted
    obtain ⟨text,returned⟩ := logic_seen b fuel member folds held name kernel s first rest count
    rw [zeroFlag_iff text returned]
    cases rest with
    | nil =>
      show 0 = flag (operand first = 0) ↔ _
      by_cases zero : operand first = 0
      · simp [zero,flag]
      · simp [zero,flag]
    | cons next rest => simp
  · intro entry
    rw [logicCmds_not info member entry] at admitted
    obtain ⟨least,most⟩ := admitted notParams rfl
    match argv,least,most with
    | [name,value],_,_ =>
      obtain ⟨text,returned⟩ := logicResult_seen (2 ^ 64 - 1 - operand value) (flag (2 ^ 64 - 1 - operand value = 0)) kernel s
      rw [not_run b fuel member entry]
      exact (zeroFlag_iff text returned).mpr rfl

def orInfo : CmdInfo := makeCmdWithParams "or" .logicOp (.logicInfo .or) logicOpParams

theorem zero_flag_single :
    let run := (runInfo .x86_64 0 (["or","0"].map Arg.of) orInfo).exec smooth ()
    orInfo ∈ logicCmds ∧ Admits orInfo.params (["or","0"].map Arg.of) ∧ printed run.trace = hexLine 0 ∧
    run.outcome = .ok 0 ∧ ¬ ZeroFlag run := by
  intro run
  have text : printed run.trace = hexLine 0 := by decide +kernel
  have returned : run.outcome = .ok 0 := by decide +kernel
  refine ⟨by decide,by decide,text,returned,?_⟩
  rw [zeroFlag_iff text returned]
  decide

theorem zero_flag_iff_pair : ZeroFlag ((runInfo .x86_64 0 (["or","0","00"].map Arg.of) orInfo).exec smooth ()) :=
  ((zero_flag_iff .x86_64 0 orInfo (by decide) (["or","0","00"].map Arg.of) (by decide) smooth ()).1 .or (.inl rfl) rfl).mpr
    (.inl (by decide))

-- A shift as it is meant, for every count.
def LogicOp.shifts (op : LogicOp) (value count : Nat) : Nat :=
  match op with
  | .shl => value * 2 ^ count % 2 ^ 64
  | _ => value / 2 ^ count

theorem shifts_beyond {op : LogicOp} (direction : op = .shl ∨ op = .shr) (small : value < 2 ^ 64) (beyond : 64 ≤ count) :
    op.shifts value count = 0 := by
  rcases direction with rfl | rfl
  · obtain ⟨more,rfl⟩ := Nat.exists_eq_add_of_le beyond
    simp only [LogicOp.shifts]
    rw [pow_add,← mul_assoc,mul_right_comm,Nat.mul_mod_left]
  · exact Nat.div_eq_of_lt (lt_of_lt_of_le small (Nat.pow_le_pow_right (by decide) beyond))

theorem shifts_lt {op : LogicOp} (direction : op = .shl ∨ op = .shr) (small : value < 2 ^ 64) (count : Nat) :
    op.shifts value count < 2 ^ 64 := by
  rcases direction with rfl | rfl
  · exact Nat.mod_lt _ (by decide)
  · exact lt_of_le_of_lt (Nat.div_le_self _ _) small

theorem shifts_add {op : LogicOp} (direction : op = .shl ∨ op = .shr) (value first second : Nat) :
    op.shifts (op.shifts value first) second = op.shifts value (first + second) := by
  rcases direction with rfl | rfl
  · simp only [LogicOp.shifts]
    rw [Nat.mod_mul_mod,mul_assoc,pow_add]
  · simp only [LogicOp.shifts]
    rw [Nat.div_div_eq_div_mul,pow_add]

-- The machine takes the count modulo 64, which shows unless nothing is left of
-- the value anyway.
theorem shifts_masked_iff {op : LogicOp} (direction : op = .shl ∨ op = .shr) (small : value < 2 ^ 64) (count : Nat) :
    op.shifts value (count % 64) = op.shifts value count ↔ count < 64 ∨ op.shifts value (count % 64) = 0 := by
  by_cases inside : count < 64
  · simp [inside,Nat.mod_eq_of_lt inside]
  · simp [inside,shifts_beyond direction small (Nat.not_lt.mp inside)]

theorem shifts_twice_iff {op : LogicOp} (direction : op = .shl ∨ op = .shr) (small : value < 2 ^ 64) (first second : Nat) :
    op.shifts (op.shifts value (first % 64)) (second % 64) = op.shifts value ((first + second) % 64) ↔
      first % 64 + second % 64 < 64 ∨ op.shifts value ((first + second) % 64) = 0 := by
  rw [shifts_add direction]
  by_cases inside : first % 64 + second % 64 < 64
  · have same : (first + second) % 64 = first % 64 + second % 64 := by omega
    simp [inside,same]
  · rw [shifts_beyond direction small (Nat.not_lt.mp inside)]
    simp [inside,eq_comm]

theorem logicCmds_shift : ∀ info ∈ logicCmds, info.privdata = .logicInfo .shl ∨ info.privdata = .logicInfo .shr →
    info.entry = .shift ∧ info.params = some shiftParams := by
  decide

def countOf (b : Build) (arg : Arg) : Nat := (strtoulLong b 0 arg.text).1

theorem shift_run (b : Build) (fuel : Nat) (member : info ∈ logicCmds) {op : LogicOp} (direction : op = .shl ∨ op = .shr)
    (held : info.privdata = .logicInfo op) (name value count : Arg) :
    runInfo b fuel [name,value,count] info = logicResult (op.shifts (operand value) (countOf b count % 64)) 0 := by
  obtain ⟨entry,params⟩ := logicCmds_shift info member (by
    rw [held]
    rcases direction with rfl | rfl <;> simp)
  have admitted : Admits info.params [name,value,count] := by
    rw [params]
    rintro _ ⟨⟩
    exact ⟨le_refl 3,le_refl 3⟩
  have noIopl : ∀ p ∈ info.params, p.ioplNeeded = 0 := by
    rw [params]
    rintro _ ⟨⟩
    rfl
  rw [runInfo_admitted b fuel noIopl admitted,entry]
  simp only [Entry.call,shift,argAt,List.getElem?_cons_succ,List.getElem?_cons_zero,Prog.done_bind,logicInfoOf,held,Prog.pure_eq]
  rcases direction with rfl | rfl <;> rfl

-- shl and shr are multiplication and division by a power of two, and compose,
-- exactly when no count reaches 64 or nothing is left of the value.
theorem shift_commands_iff (b : Build) (fuel : Nat) (info : CmdInfo) (member : info ∈ logicCmds) (op : LogicOp)
    (direction : op = .shl ∨ op = .shr) (held : info.privdata = .logicInfo op) (name value first second sum again : Arg)
    (total : countOf b sum = countOf b first + countOf b second) (kernel : Kernel Sys σ) (s : σ) :
    let run := fun args => (runInfo b fuel (name :: args) info).exec kernel s
    (printed (run [value,first]).trace = hexLine (op.shifts (operand value) (countOf b first)) ↔
      countOf b first < 64 ∨ op.shifts (operand value) (countOf b first % 64) = 0) ∧
    (again.text = printed (run [value,first]).trace ∨ again.text ++ "\n".toList = printed (run [value,first]).trace →
      (printed (run [again,second]).trace = printed (run [value,sum]).trace ↔
        countOf b first % 64 + countOf b second % 64 < 64 ∨
        op.shifts (operand value) ((countOf b first + countOf b second) % 64) = 0)) := by
  intro run
  have text (value count : Arg) :
      printed (run [value,count]).trace = hexLine (op.shifts (operand value) (countOf b count % 64)) := by
    simp only [run]
    rw [shift_run b fuel member direction held name value count]
    exact (logicResult_seen _ _ kernel s).1
  constructor
  · rw [text,hexLine_inj]
    exact shifts_masked_iff direction (operand_lt value) (countOf b first)
  · intro taken
    have number : operand again = op.shifts (operand value) (countOf b first % 64) := by
      apply operand_printed (shifts_lt direction (operand_lt value) _)
      rw [text] at taken
      exact taken.imp_right (fun same => List.append_cancel_right same)
    rw [text,text,hexLine_inj,number,total]
    exact shifts_twice_iff direction (operand_lt value) (countOf b first) (countOf b second)

def shlInfo : CmdInfo := makeCmdWithParams "shl" .shift (.logicInfo .shl) shiftParams

theorem shift_commands_wrap :
    let run := fun args : List String => (runInfo .x86_64 0 (args.map Arg.of) shlInfo).exec smooth ()
    printed (run ["shl","1","64"]).trace = hexLine 1 ∧
    printed (run ["shl","1","64"]).trace ≠ hexLine (LogicOp.shifts .shl 1 64) ∧
    printed (run ["shl","1","32"]).trace = "0x100000000\n".toList ∧
    printed (run ["shl","0x100000000","32"]).trace ≠ printed (run ["shl","1","64"]).trace := by
  refine ⟨by decide +kernel,by decide +kernel,by decide +kernel,by decide +kernel⟩

theorem shift_commands_iff_small :
    let run := fun args => (runInfo .x86_64 0 (Arg.of "shl" :: args) shlInfo).exec smooth ()
    printed (run [.of "3",.of "20"]).trace = hexLine (3 * 2 ^ 20) ∧
    printed (run [.of "0x300000",.of "30"]).trace = printed (run [.of "3",.of "50"]).trace := by
  intro run
  have value : operand (.of "3") = 3 := by decide +kernel
  have first : countOf .x86_64 (.of "20") = 20 := by decide +kernel
  have second : countOf .x86_64 (.of "30") = 30 := by decide +kernel
  have both := shift_commands_iff .x86_64 0 shlInfo (by decide) .shl (.inl rfl) rfl (.of "shl") (.of "3") (.of "20") (.of "30")
    (.of "50") (.of "0x300000") (by decide +kernel) smooth ()
  simp only [value,first,second] at both
  exact ⟨both.1.mpr (.inl (by decide)),(both.2 (.inr (by decide +kernel))).mpr (.inl (by decide))⟩

end Iotools
