import Iotools.MmioAccess

namespace Iotools
open Numeral Interaction

def LogicOp.Folds (op : LogicOp) : Prop := op = .or ∨ op = .and ∨ op = .xor

def LogicOp.combine (op : LogicOp) (left right : Nat) : Nat :=
  match op with
  | .or => left ||| right
  | .and => left &&& right
  | .xor => left ^^^ right
  | _ => left

def LogicOp.neutral (op : LogicOp) : Nat :=
  match op with
  | .and => 2 ^ 64 - 1
  | _ => 0

section Algebra
variable {op : LogicOp} (folds : op.Folds)
include folds

theorem logicStep_combine (result val : Nat) :
    logicStep op result val = some (op.combine result val,flag (op.combine result val = 0)) := by
  rcases folds with rfl | rfl | rfl <;> rfl

theorem combine_right_comm (x y z : Nat) : op.combine (op.combine z x) y = op.combine (op.combine z y) x := by
  rcases folds with rfl | rfl | rfl <;> simp only [LogicOp.combine]
  · rw [Nat.or_assoc,Nat.or_comm x y,← Nat.or_assoc]
  · rw [Nat.and_assoc,Nat.and_comm x y,← Nat.and_assoc]
  · rw [Nat.xor_assoc,Nat.xor_comm x y,← Nat.xor_assoc]

theorem combine_lt (left : x < 2 ^ 64) (right : y < 2 ^ 64) : op.combine x y < 2 ^ 64 := by
  rcases folds with rfl | rfl | rfl
  · exact Nat.or_lt_two_pow left right
  · exact Nat.and_lt_two_pow x right
  · exact Nat.xor_lt_two_pow left right

theorem combine_neutral (small : x < 2 ^ 64) : op.combine op.neutral x = x := by
  rcases folds with rfl | rfl | rfl
  · exact Nat.zero_or x
  · unfold LogicOp.combine LogicOp.neutral
    rw [Nat.and_comm]
    exact Nat.and_two_pow_sub_one_of_lt_two_pow small
  · exact Nat.zero_xor x

end Algebra

def operand (arg : Arg) : Nat := (strtoull 0 arg.text).1

def LogicOp.fold (op : LogicOp) (result : Nat) (args : List Arg) : Nat :=
  args.foldl (fun value arg => op.combine value (operand arg)) result

theorem operand_lt (arg : Arg) : operand arg < 2 ^ 64 := strtoul_lt 64 0 arg.text

theorem fold_lt {op : LogicOp} (folds : op.Folds) (args : List Arg) (small : result < 2 ^ 64) : op.fold result args < 2 ^ 64 := by
  induction args generalizing result with
  | nil => exact small
  | cons arg rest ih => exact ih (combine_lt folds small (operand_lt arg))

-- What the loop leaves: the text of the folded value, and 1 for a result of zero
-- once there was a second operand.
def logicResult (final : Nat) (rc : Int) : Action Int := printHex final >>= fun _ => .done rc

theorem logicLoop_folds {op : LogicOp} (folds : op.Folds) (held : info.privdata = .logicInfo op) (argv rest : List Arg)
    (position result : Nat) (rc : Int) (left : argv.drop position = rest) :
    logicLoop argv info rest.length position result rc =
      logicResult (op.fold result rest) (if rest = [] then rc else flag (op.fold result rest = 0)) := by
  induction rest generalizing position result rc with
  | nil => rfl
  | cons arg rest ih =>
    have found : argv[position]? = some arg := by
      rw [← List.head?_drop,left]
      rfl
    have after : argv.drop (position + 1) = rest := by
      rw [← List.tail_drop,left]
      rfl
    have step := logicStep_combine folds result (operand arg)
    have code : (if rest = [] then flag (op.combine result (operand arg) = 0)
        else flag (op.fold (op.combine result (operand arg)) rest = 0)) = flag (op.fold result (arg :: rest) = 0) := by
      cases rest <;> rfl
    have loop := ih (position + 1) (op.combine result (operand arg)) (flag (op.combine result (operand arg) = 0)) after
    rw [code] at loop
    unfold operand at step
    simp only [List.length_cons,logicLoop,argAt,found,Prog.done_bind,logicInfoOf,held,Prog.pure_eq,step]
    exact loop

theorem logicCmds_folds : ∀ info ∈ logicCmds,
    info.privdata = .logicInfo .or ∨ info.privdata = .logicInfo .and ∨ info.privdata = .logicInfo .xor →
    info.entry = .logicOp ∧ info.params = some logicOpParams := by
  decide

section Run
variable (b : Build) (fuel : Nat) {info : CmdInfo} (member : info ∈ logicCmds) {op : LogicOp} (folds : op.Folds)
  (held : info.privdata = .logicInfo op) (name : Arg)
include member folds held

theorem logic_run (first : Arg) (rest : List Arg) (count : rest.length + 2 ≤ intMax) :
    runInfo b fuel (name :: first :: rest) info =
      logicResult (op.fold (operand first) rest) (if rest = [] then 0 else flag (op.fold (operand first) rest = 0)) := by
  obtain ⟨entry,params⟩ := logicCmds_folds info member (by
    rw [held]
    rcases folds with rfl | rfl | rfl <;> simp)
  have admitted : Admits info.params (name :: first :: rest) := by
    rw [params]
    rintro _ ⟨⟩
    simp only [logicOpParams,varArgs,List.length_cons]
    omega
  have noIopl : ∀ p ∈ info.params, p.ioplNeeded = 0 := by
    rw [params]
    rintro _ ⟨⟩
    rfl
  rw [runInfo_admitted b fuel noIopl admitted,entry]
  exact logicLoop_folds folds held (name :: first :: rest) rest 2 (operand first) 0 rfl

variable (kernel : Kernel Sys σ) (s : σ)

theorem logic_seen (first : Arg) (rest : List Arg) (count : rest.length + 2 ≤ intMax) :
    printed ((runInfo b fuel (name :: first :: rest) info).exec kernel s).trace =
      "0x".toList ++ hexLower 0 (op.fold (operand first) rest) ++ "\n".toList ∧
    ((runInfo b fuel (name :: first :: rest) info).exec kernel s).outcome =
      .ok (if rest = [] then 0 else flag (op.fold (operand first) rest = 0)) := by
  rw [logic_run b fuel member folds held name first rest count]
  refine ⟨?_,rfl⟩
  simp [logicResult,printHex,Prog.exec_call]

end Run

theorem operand_printed (small : value < 2 ^ 64) (arg : Arg)
    (text : arg.text = "0x".toList ++ hexLower 0 value ++ "\n".toList ∨ arg.text = "0x".toList ++ hexLower 0 value) :
    operand arg = value := by
  have found : ∃ rest, subject 0 arg.text = some ⟨false,value,rest⟩ := by
    cases text with
    | inl whole =>
      rw [whole]
      refine ⟨"\n".toList,subject_hexLower (.inl rfl) 0 value ?_⟩
      intro c newline
      cases newline
      rfl
    | inr bare =>
      rw [bare,← List.append_nil (hexLower 0 value)]
      exact ⟨[],subject_hexLower (.inl rfl) 0 value (by simp)⟩
  obtain ⟨rest,found⟩ := found
  rw [operand,strtoull,strtoul_of_subject found small]

theorem fold_append (op : LogicOp) (result : Nat) (left right : List Arg) :
    op.fold result (left ++ right) = op.fold (op.fold result left) right := List.foldl_append

theorem fold_first {op : LogicOp} (folds : op.Folds) (first : Arg) (rest : List Arg) :
    op.fold (operand first) rest = op.fold op.neutral (first :: rest) := by
  show _ = op.fold (op.combine op.neutral (operand first)) rest
  rw [combine_neutral folds (operand_lt first)]

theorem fold_perm {op : LogicOp} (folds : op.Folds) (perm : left.Perm right) (result : Nat) :
    op.fold result left = op.fold result right := by
  apply perm.foldl_eq'
  intro x _ y _ z
  exact combine_right_comm folds (operand x) (operand y) z

theorem fold_printed {op : LogicOp} (folds : op.Folds) (x : Arg) (xs ys : List Arg) (first : Arg)
    (text : first.text = "0x".toList ++ hexLower 0 (op.fold (operand x) xs) ++ "\n".toList ∨
      first.text = "0x".toList ++ hexLower 0 (op.fold (operand x) xs)) :
    op.fold (operand first) ys = op.fold (operand x) (xs ++ ys) := by
  have small := fold_lt folds xs (operand_lt x)
  rw [fold_append,operand_printed small first text]

theorem fold_reordered {op : LogicOp} (folds : op.Folds) (perm : (x :: xs).Perm (y :: ys)) :
    op.fold (operand x) xs = op.fold (operand y) ys := by
  rw [fold_first folds,fold_first folds,fold_perm folds perm]

-- Nested and reordered calls of or, and and xor give the same text and the same
-- exit code, on every build and whatever the environment does.
theorem logic_compose (b : Build) (fuel : Nat) (info : CmdInfo) (member : info ∈ logicCmds) (op : LogicOp) (folds : op.Folds)
    (held : info.privdata = .logicInfo op) (name : Arg) (kernel : Kernel Sys σ) (s : σ) :
    let run := fun args => (runInfo b fuel (name :: args) info).exec kernel s
    (∀ xs ys : List Arg, xs ≠ [] → ys ≠ [] → xs.length + ys.length < intMax → ∀ first : Arg,
      first.text = printed (run xs).trace ∨ first.text ++ "\n".toList = printed (run xs).trace →
      printed (run (first :: ys)).trace = printed (run (xs ++ ys)).trace ∧
      (run (first :: ys)).outcome = (run (xs ++ ys)).outcome) ∧
    (∀ xs ys : List Arg, xs.length < intMax → xs.Perm ys →
      printed (run xs).trace = printed (run ys).trace ∧ (run xs).outcome = (run ys).outcome) := by
  have seen := logic_seen b fuel member folds held name kernel s
  constructor
  · intro xs ys someXs someYs count first text
    obtain ⟨x,xs,rfl⟩ := List.exists_cons_of_ne_nil someXs
    obtain ⟨y,ys,rfl⟩ := List.exists_cons_of_ne_nil someYs
    simp only [List.length_cons] at count
    obtain ⟨inner,_⟩ := seen x xs (by omega)
    obtain ⟨outerText,outerCode⟩ := seen first (y :: ys) (by simp only [List.length_cons]; omega)
    obtain ⟨wholeText,wholeCode⟩ := seen x (xs ++ y :: ys) (by simp only [List.length_append,List.length_cons]; omega)
    rw [inner] at text
    have same := fold_printed folds x xs (y :: ys) first (text.imp_right (fun same => List.append_cancel_right same))
    rw [List.cons_append,outerText,outerCode,wholeText,wholeCode,same]
    simp
  · intro xs ys count perm
    cases xs with
    | nil =>
      rw [perm.nil_eq]
      exact ⟨rfl,rfl⟩
    | cons x xs =>
      obtain ⟨y,ys,rfl⟩ := List.exists_cons_of_ne_nil (fun none_ : ys = [] => by
        rw [none_] at perm
        cases perm.eq_nil)
      have length : xs.length = ys.length := by simpa using perm.length_eq
      simp only [List.length_cons] at count
      obtain ⟨leftText,leftCode⟩ := seen x xs (by omega)
      obtain ⟨rightText,rightCode⟩ := seen y ys (by omega)
      have ends : xs = [] ↔ ys = [] := by
        rw [← List.length_eq_zero_iff,← List.length_eq_zero_iff,length]
      rw [leftText,leftCode,rightText,rightCode,fold_reordered folds perm]
      simp [ends]

theorem logic_compose_xor :
    let info := makeCmdWithParams "xor" .logicOp (.logicInfo .xor) logicOpParams
    let run := fun args => (runInfo .i386 0 (Arg.of "xor" :: args) info).exec smooth ()
    printed (run (["0x10","010"].map Arg.of)).trace = "0x18\n".toList ∧
    printed (run (["0x18","24"].map Arg.of)).trace = "0x0\n".toList ∧
    (run (["0x10","010","24"].map Arg.of)).outcome = .ok 1 ∧
    (run (["0x18","24"].map Arg.of)).outcome = (run (["0x10","010","24"].map Arg.of)).outcome ∧
    (run (["24","010","0x10"].map Arg.of)).outcome = (run (["0x10","010","24"].map Arg.of)).outcome := by
  intro info run
  have laws := logic_compose .i386 0 info (by decide) .xor (.inr (.inr rfl)) rfl (.of "xor") smooth ()
  have nested := laws.1 (["0x10","010"].map Arg.of) (["24"].map Arg.of) (by decide) (by decide) (by decide) (.of "0x18")
    (.inr (by decide +kernel))
  have swapped := laws.2 (["24","010","0x10"].map Arg.of) (["0x10","010","24"].map Arg.of) (by decide)
    (by decide)
  exact ⟨by decide +kernel,by decide +kernel,by decide +kernel,nested.2,swapped.2⟩

end Iotools
