import Iotools.LogicResults
import Iotools.MemorySessions

namespace Iotools
open Bytes Numeral Interaction

-- What a shell puts in the place of a command: its output without the newlines
-- at the end, as one argument.
def substituted (text : Text) : Text := (text.reverse.dropWhile (· = '\n')).reverse

def Arg.taken (text : Text) : Option Arg :=
  if plain : '\x00' ∉ substituted text ∧ (substituted text).length ≤ intMax then
    some ⟨substituted text,plain.1,plain.2⟩
  else none

inductive Operator where
  | or | and | xor | shl | shr | bts | btr
  deriving DecidableEq

def Operator.info : Operator → CmdInfo
  | .or => makeCmdWithParams "or" .logicOp (.logicInfo .or) logicOpParams
  | .and => makeCmdWithParams "and" .logicOp (.logicInfo .and) logicOpParams
  | .xor => makeCmdWithParams "xor" .logicOp (.logicInfo .xor) logicOpParams
  | .shl => makeCmdWithParams "shl" .shift (.logicInfo .shl) shiftParams
  | .shr => makeCmdWithParams "shr" .shift (.logicInfo .shr) shiftParams
  | .bts => makeCmdWithParams "bts" .logicOp (.logicInfo .bts) bitParams
  | .btr => makeCmdWithParams "btr" .logicOp (.logicInfo .btr) bitParams

def notInfo : CmdInfo := makeCmdWithParams "not" .not .null notParams

def Operator.apply (o : Operator) (x y : BitVec 64) : BitVec 64 :=
  match o with
  | .or => x ||| y
  | .and => x &&& y
  | .xor => x ^^^ y
  | .shl => x <<< y
  | .shr => x >>> y
  | .bts => x ||| 1#64 <<< y
  | .btr => x &&& ~~~ (1#64 <<< y)

-- Where the command does what it is for: a count inside the word, a bit below
-- the sign of an int.
def Operator.Fits (o : Operator) (y : BitVec 64) : Prop :=
  match o with
  | .shl | .shr => y.toNat < 64
  | .bts | .btr => y.toNat ≤ 30
  | _ => True

-- A word of a script: typed, or computed by a command whose output stands in its
-- place.
inductive Word where
  | typed (arg : Arg)
  | operate (operator : Operator) (left right : Word)
  | invert (word : Word)
  | load (info : CmdInfo) (reads : info ∈ memCmds ∧ info.entry = .mmioReadX) (address : Word)

structure Line where
  info : CmdInfo
  writes : info ∈ memCmds ∧ info.entry = .mmioWriteX
  address : Word
  value : Word

def Word.value (order : Endian) (memory : Memory) : Word → BitVec 64
  | .typed arg => BitVec.ofNat 64 (operand arg)
  | .operate o left right => o.apply (left.value order memory) (right.value order memory)
  | .invert word => ~~~ word.value order memory
  | .load info _ address => BitVec.ofNat 64 (decode order (memory.load (address.value order memory).toNat info.bytes))

def Word.Fits (order : Endian) (memory : Memory) : Word → Prop
  | .typed _ => True
  | .operate o left right => left.Fits order memory ∧ right.Fits order memory ∧ o.Fits (right.value order memory)
  | .invert word => word.Fits order memory
  | .load _ _ address => address.Fits order memory

def Line.meaning (order : Endian) (line : Line) (memory : Memory) : Memory :=
  memory.store (line.address.value order memory).toNat
    (encode order line.info.bytes (line.value.value order memory).toNat)

abbrev Script := List Line

def Script.meaning (order : Endian) : Script → Memory → Memory
  | [],memory => memory
  | line :: rest,memory => Script.meaning order rest (line.meaning order memory)

def Script.Fits (order : Endian) : Script → Memory → Prop
  | [],_ => True
  | line :: rest,memory => line.address.Fits order memory ∧ line.value.Fits order memory ∧
      Script.Fits order rest (line.meaning order memory)

def CmdInfo.word (info : CmdInfo) : Arg := Arg.of info.name

section Shell
variable (b : Build) (order : List Group) (fuel : Nat) (kernel : Kernel Sys σ)

-- One call of the program by a script, which stops at the first failure.
def Shell.call (args : List Arg) (s : σ) : Option (Text × σ) :=
  let run := (runCommand b (registerAll order) fuel (Arg.of "iotools" :: args)).exec kernel s
  run.outcome.toOption.bind (fun rc => if exitStatus rc = 0 then some (printed run.trace,run.state) else none)

def Shell.output (args : List Arg) (s : σ) : Option (Arg × σ) :=
  (Shell.call b order fuel kernel args s).bind (fun answer => (Arg.taken answer.1).map (fun arg => (arg,answer.2)))

def Word.expand : Word → σ → Option (Arg × σ)
  | .typed arg,s => some (arg,s)
  | .operate o left right,s =>
    (left.expand s).bind fun x => (right.expand x.2).bind fun y =>
      Shell.output b order fuel kernel [o.info.word,x.1,y.1] y.2
  | .invert word,s => (word.expand s).bind fun x => Shell.output b order fuel kernel [notInfo.word,x.1] x.2
  | .load info _ address,s => (address.expand s).bind fun x => Shell.output b order fuel kernel [info.word,x.1] x.2

def Line.perform (line : Line) (s : σ) : Option σ :=
  (line.address.expand b order fuel kernel s).bind fun x => (line.value.expand b order fuel kernel x.2).bind fun y =>
    (Shell.call b order fuel kernel [line.info.word,x.1,y.1] y.2).map Prod.snd

def Script.perform : Script → σ → Option σ
  | [],s => some s
  | line :: rest,s => (line.perform b order fuel kernel s).bind (Script.perform rest)

end Shell

theorem substituted_line (plain : '\n' ∉ body) : substituted (body ++ "\n".toList) = body := by
  have back : (body ++ "\n".toList).reverse = '\n' :: body.reverse := by
    rw [List.reverse_append]
    rfl
  have rest : body.reverse.dropWhile (· = '\n') = body.reverse := by
    rw [List.dropWhile_eq_self_iff]
    intro some_ newline
    have first := List.getElem_mem some_
    rw [of_decide_eq_true newline,List.mem_reverse] at first
    exact plain first
  unfold substituted
  rw [back,List.dropWhile_cons_of_pos (by decide),rest,List.reverse_reverse]

theorem hexLower_short (narrow : width ≤ 16) (small : value < 2 ^ 64) : (hexLower width value).length ≤ 16 := by
  have digits : (Nat.toDigits 16 value).length ≤ 16 := Nat.toDigits_length 16 value 16 (by decide) small
  simp only [hexLower,padded,List.length_append,List.length_replicate]
  omega

theorem taken_number (narrow : width ≤ 16) (small : value < 2 ^ 64) :
    ∃ arg, Arg.taken ("0x".toList ++ hexLower width value ++ "\n".toList) = some arg ∧ operand arg = value := by
  have newline : '\n' ∉ "0x".toList ++ hexLower width value := by
    rw [List.mem_append]
    exact not_or.mpr ⟨by decide,hexLower_notMem rfl⟩
  have nul : '\x00' ∉ "0x".toList ++ hexLower width value := by
    rw [List.mem_append]
    exact not_or.mpr ⟨by decide,hexLower_notMem rfl⟩
  have short : ("0x".toList ++ hexLower width value).length ≤ intMax := by
    have digits := hexLower_short narrow small
    have front : "0x".toList.length = 2 := by decide
    rw [List.length_append,front]
    unfold intMax
    omega
  have plain : '\x00' ∉ substituted ("0x".toList ++ hexLower width value ++ "\n".toList) ∧
      (substituted ("0x".toList ++ hexLower width value ++ "\n".toList)).length ≤ intMax := by
    rw [substituted_line newline]
    exact ⟨nul,short⟩
  refine ⟨_,dif_pos plain,?_⟩
  have found := subject_hexLower (.inl rfl) width value (show ∀ c ∈ ([] : Text).head?, isDigit 16 c = false by simp)
  rw [List.append_nil] at found
  unfold operand strtoull
  dsimp only
  rw [substituted_line newline]
  exact congrArg Prod.fst (strtoul_of_subject found small)

-- What the commands compute, on natural numbers.
def Operator.code : Operator → Nat → Nat → Nat
  | .or,x,y => LogicOp.combine .or x y
  | .and,x,y => LogicOp.combine .and x y
  | .xor,x,y => LogicOp.combine .xor x y
  | .shl,x,y => LogicOp.shifts .shl x (y % 64)
  | .shr,x,y => LogicOp.shifts .shr x (y % 64)
  | .bts,x,y => bitResult .bts x y
  | .btr,x,y => bitResult .btr x y

theorem mask_small (low : bit ≤ 30) : toUlonglong (intBit bit) = 2 ^ bit := by
  apply Nat.eq_of_testBit_eq
  intro i
  have plain : bit % 32 ≠ 31 ∧ bit % 32 = bit := by omega
  rw [mask_testBit,if_neg plain.1,plain.2,Nat.testBit_two_pow]
  simp [eq_comm]

theorem one_shifted (n : BitVec 64) (low : n.toNat ≤ 30) : (1#64 <<< n).toNat = 2 ^ n.toNat := by
  have small : 2 ^ n.toNat < 2 ^ 64 := Nat.pow_lt_pow_right (by decide) (by omega)
  rw [BitVec.shiftLeft_eq',BitVec.toNat_shiftLeft,Nat.shiftLeft_eq]
  simpa using small

-- Inside its range, each command is the operation on 64-bit words.
theorem operator_code (o : Operator) (x y : BitVec 64) (fits : o.Fits y) : o.code x.toNat y.toNat = (o.apply x y).toNat := by
  cases o with
  | or => exact (BitVec.toNat_or x y).symm
  | and => exact (BitVec.toNat_and x y).symm
  | xor => exact (BitVec.toNat_xor x y).symm
  | shl =>
    change y.toNat < 64 at fits
    simp only [Operator.code,Operator.apply,LogicOp.shifts,Nat.mod_eq_of_lt fits]
    rw [BitVec.shiftLeft_eq',BitVec.toNat_shiftLeft,Nat.shiftLeft_eq]
  | shr =>
    change y.toNat < 64 at fits
    simp only [Operator.code,Operator.apply,LogicOp.shifts,Nat.mod_eq_of_lt fits]
    rw [BitVec.ushiftRight_eq',BitVec.toNat_ushiftRight,Nat.shiftRight_eq_div_pow]
  | bts =>
    change y.toNat ≤ 30 at fits
    simp only [Operator.code,Operator.apply,bitResult,mask_small fits]
    rw [BitVec.toNat_or,one_shifted y fits]
  | btr =>
    change y.toNat ≤ 30 at fits
    simp only [Operator.code,Operator.apply,bitResult,mask_small fits]
    rw [BitVec.toNat_and,BitVec.toNat_not,one_shifted y fits]

theorem operator_listed (o : Operator) : o.info ∈ logicCmds := by cases o <;> decide

theorem countOf_operand (w64 : b.long = .w64) (arg : Arg) : countOf b arg = operand arg := by
  unfold countOf operand strtoulLong strtoull
  rw [w64]
  rfl

theorem flag_nonneg (condition : Bool) : 0 ≤ flag condition := by cases condition <;> decide

theorem operator_run (b : Build) (w64 : b.long = .w64) (fuel : Nat) (o : Operator) (name x y : Arg) :
    ∃ rc : Int, runInfo b fuel [name,x,y] o.info = logicResult (o.code (operand x) (operand y)) rc ∧ 0 ≤ rc := by
  have listed := operator_listed o
  have count : 1 + 2 ≤ intMax := by decide
  cases o with
  | or => exact ⟨_,logic_run b fuel listed (.inl rfl) rfl name x [y] count,flag_nonneg _⟩
  | and => exact ⟨_,logic_run b fuel listed (.inr (.inl rfl)) rfl name x [y] count,flag_nonneg _⟩
  | xor => exact ⟨_,logic_run b fuel listed (.inr (.inr rfl)) rfl name x [y] count,flag_nonneg _⟩
  | shl =>
    have run := shift_run b fuel listed (.inl rfl) rfl name x y
    rw [countOf_operand w64] at run
    exact ⟨0,run,le_refl _⟩
  | shr =>
    have run := shift_run b fuel listed (.inr rfl) rfl name x y
    rw [countOf_operand w64] at run
    exact ⟨0,run,le_refl _⟩
  | bts => exact ⟨_,bit_run b fuel listed (.inl rfl) rfl name x y,flag_nonneg _⟩
  | btr => exact ⟨_,bit_run b fuel listed (.inr rfl) rfl name x y,flag_nonneg _⟩

def Machine.Maps (machine : Machine) : Prop := ∀ flags addr, addr < 2 ^ 64 → (machine.grants flags addr).isSome

theorem word_text : ∀ info ∈ everyCmd, info.word.text = info.name.toList := by decide +kernel

theorem logic_registered (b : Build) (listed : info ∈ logicCmds) : info ∈ registered b := by
  have group : Group.logic ∈ groups b := by simp [groups]
  exact List.mem_flatMap.mpr ⟨.logic,group,listed⟩

theorem memory_registered (b : Build) (listed : info ∈ memCmds) : info ∈ registered b := by
  rcases List.mem_append.mp listed with cached | uncached
  · exact List.mem_flatMap.mpr ⟨.mmio,by simp [groups],cached⟩
  · exact List.mem_flatMap.mpr ⟨.mem,by simp [groups],uncached⟩

theorem ofNat_operand (arg : Arg) : (BitVec.ofNat 64 (operand arg)).toNat = operand arg := by
  rw [BitVec.toNat_ofNat,Nat.mod_eq_of_lt (operand_lt arg)]

theorem logicResult_exec (value : Nat) (rc : Int) (machine : Machine) (s : DevMem) :
    (logicResult value rc).exec machine.kernel s = ⟨((logicResult value rc).exec machine.kernel s).trace,.ok rc,s⟩ := rfl

section Meaning
variable (b : Build) (w64 : b.long = .w64) {order : List Group} (perm : order.Perm (groups b)) (fuel : Nat)
  (enough : order.length ≤ fuel)
include perm enough

theorem named_call (kernel : Kernel Sys σ) (s : σ) (known : info ∈ registered b) (args : List Arg)
    (ends : (runInfo b fuel (info.word :: args) info).exec kernel s = ⟨trace,.ok rc,s'⟩) (positive : 0 ≤ rc) :
    Shell.call b order fuel kernel (info.word :: args) s = some (printed trace,s') := by
  have direct := runCommand_direct perm enough known (Arg.of "iotools") info.word args (word_text info (mem_everyCmd known))
  have status : exitStatus rc = 0 := if_neg (Int.not_lt.mpr positive)
  unfold Shell.call
  rw [direct,ends]
  simp [Except.toOption,status]

theorem named_output (kernel : Kernel Sys σ) (s : σ) (known : info ∈ registered b) (args : List Arg)
    (ends : (runInfo b fuel (info.word :: args) info).exec kernel s = ⟨trace,.ok rc,s'⟩) (positive : 0 ≤ rc)
    (narrow : width ≤ 16) (small : value < 2 ^ 64)
    (text : printed trace = "0x".toList ++ hexLower width value ++ "\n".toList) :
    ∃ arg, Shell.output b order fuel kernel (info.word :: args) s = some (arg,s') ∧ operand arg = value := by
  obtain ⟨arg,taken,number⟩ := taken_number narrow small
  refine ⟨arg,?_,number⟩
  unfold Shell.output
  rw [named_call b perm fuel enough kernel s known args ends positive,Option.bind_some,text,taken]
  rfl

include w64

-- A word stands for its value, and asking for it changes no memory.
theorem expand_value (machine : Machine) (maps : machine.Maps) (w : Word) (s : DevMem) (fits : w.Fits b.order s.memory) :
    ∃ arg s', w.expand b order fuel machine.kernel s = some (arg,s') ∧ operand arg = (w.value b.order s.memory).toNat ∧
      s'.memory = s.memory := by
  induction w generalizing s with
  | typed arg => exact ⟨arg,s,rfl,(ofNat_operand arg).symm,rfl⟩
  | operate o left right leftIh rightIh =>
    obtain ⟨leftFits,rightFits,inside⟩ := fits
    obtain ⟨x,s1,expands,number,kept⟩ := leftIh s leftFits
    obtain ⟨y,s2,expands',number',kept'⟩ := rightIh s1 (by rw [kept]; exact rightFits)
    rw [kept] at number' kept'
    obtain ⟨rc,run,positive⟩ := operator_run b w64 fuel o o.info.word x y
    have computed := operator_code o (left.value b.order s.memory) (right.value b.order s.memory) inside
    rw [number,number',computed] at run
    have ends := logicResult_exec (o.apply (left.value b.order s.memory) (right.value b.order s.memory)).toNat rc machine s2
    rw [← run] at ends
    have text := (logicResult_seen (o.apply (left.value b.order s.memory) (right.value b.order s.memory)).toNat rc
      machine.kernel s2).1
    rw [← run] at text
    have known := logic_registered b (operator_listed o)
    obtain ⟨arg,output,value⟩ := named_output b perm fuel enough machine.kernel s2 known [x,y] ends positive (Nat.zero_le 16)
      (BitVec.isLt _) text
    refine ⟨arg,s2,?_,value,kept'⟩
    simp only [Word.expand,expands,expands',Option.bind_some]
    exact output
  | invert word ih =>
    obtain ⟨x,s1,expands,number,kept⟩ := ih s fits
    have listed : notInfo ∈ logicCmds := by decide
    have run := not_run b fuel listed rfl notInfo.word x
    rw [number,← BitVec.toNat_not] at run
    have ends := logicResult_exec (~~~ word.value b.order s.memory).toNat
      (flag ((~~~ word.value b.order s.memory).toNat = 0)) machine s1
    rw [← run] at ends
    have text := (logicResult_seen (~~~ word.value b.order s.memory).toNat
      (flag ((~~~ word.value b.order s.memory).toNat = 0)) machine.kernel s1).1
    rw [← run] at text
    obtain ⟨arg,output,value⟩ := named_output b perm fuel enough machine.kernel s1 (logic_registered b listed) [x] ends
      (flag_nonneg _) (Nat.zero_le 16) (BitVec.isLt _) text
    refine ⟨arg,s1,?_,value,kept⟩
    simp only [Word.expand,expands,Option.bind_some]
    exact output
  | load info reads address ih =>
    obtain ⟨x,s1,expands,number,kept⟩ := ih s fits
    obtain ⟨_,wide⟩ := access_width reads.1 (.inl reads.2)
    obtain ⟨returned,_,unchanged,text⟩ := read_effect b w64 fuel machine info reads.1 info.word x s1 reads.2
      (maps _ _ (operand_lt x))
    have small : decode b.order (s1.memory.load (strtoull 0 x.text).1 info.bytes) < 2 ^ 64 := by
      have below := decode_lt b.order (s1.memory.load (strtoull 0 x.text).1 info.bytes)
      rw [Memory.load_length] at below
      have most : (256 : Nat) ^ info.bytes ≤ 256 ^ 8 := Nat.pow_le_pow_right (by decide) wide
      exact lt_of_lt_of_le below most
    have ends : (runInfo b fuel [info.word,x] info).exec machine.kernel s1 =
        ⟨((runInfo b fuel [info.word,x] info).exec machine.kernel s1).trace,.ok 0,
          ((runInfo b fuel [info.word,x] info).exec machine.kernel s1).state⟩ := by rw [← returned]
    obtain ⟨arg,output,value⟩ := named_output b perm fuel enough machine.kernel s1 (memory_registered b reads.1) [x] ends
      (le_refl 0) (by omega) small text
    refine ⟨arg,_,?_,?_,unchanged.trans kept⟩
    · simp only [Word.expand,expands,Option.bind_some]
      exact output
    · simp only [Word.value]
      rw [value,BitVec.toNat_ofNat,← number,← kept]
      exact (Nat.mod_eq_of_lt small).symm

theorem perform_line (machine : Machine) (maps : machine.Maps) (line : Line) (s : DevMem)
    (fits : line.address.Fits b.order s.memory ∧ line.value.Fits b.order s.memory) :
    ∃ s', line.perform b order fuel machine.kernel s = some s' ∧ s'.memory = line.meaning b.order s.memory := by
  obtain ⟨x,s1,expands,number,kept⟩ := expand_value b w64 perm fuel enough machine maps line.address s fits.1
  obtain ⟨y,s2,expands',number',kept'⟩ := expand_value b w64 perm fuel enough machine maps line.value s1
    (by rw [kept]; exact fits.2)
  rw [kept] at number' kept'
  obtain ⟨returned,_,stored⟩ := write_effect b w64 fuel machine line.info line.writes.1 line.info.word x s2 line.writes.2 y
    (maps _ _ (operand_lt x))
  have ends : (runInfo b fuel [line.info.word,x,y] line.info).exec machine.kernel s2 =
      ⟨((runInfo b fuel [line.info.word,x,y] line.info).exec machine.kernel s2).trace,.ok 0,
        ((runInfo b fuel [line.info.word,x,y] line.info).exec machine.kernel s2).state⟩ := by rw [← returned]
  have calls := named_call b perm fuel enough machine.kernel s2 (memory_registered b line.writes.1) [x,y] ends (le_refl 0)
  refine ⟨((runInfo b fuel [line.info.word,x,y] line.info).exec machine.kernel s2).state,?_,?_⟩
  · simp only [Line.perform,expands,expands',Option.bind_some]
    rw [calls]
    rfl
  · have value : (strtoulLong b 0 y.text).1 = operand y := countOf_operand w64 y
    have address : (strtoull 0 x.text).1 = operand x := rfl
    rw [stored,kept',value,address,number,number']
    rfl

end Meaning

-- A script of memory writes, whose addresses and values are computed by nested
-- calls of the logic and read commands, does to the memory what it says, word
-- for word, wherever counts stay inside a word and bits below the sign of an int.
theorem script_meaning (b : Build) (w64 : b.long = .w64) (order : List Group) (perm : order.Perm (groups b)) (fuel : Nat)
    (enough : order.length ≤ fuel) (machine : Machine) (maps : machine.Maps) (script : Script) (s : DevMem)
    (fits : script.Fits b.order s.memory) :
    ∃ s', script.perform b order fuel machine.kernel s = some s' ∧ s'.memory = script.meaning b.order s.memory := by
  induction script generalizing s with
  | nil => exact ⟨s,rfl,rfl⟩
  | cons line rest ih =>
    obtain ⟨first,second,later⟩ := fits
    obtain ⟨s1,performs,stored⟩ := perform_line b w64 perm fuel enough machine maps line s ⟨first,second⟩
    obtain ⟨s2,ends,final⟩ := ih s1 (by rw [stored]; exact later)
    refine ⟨s2,?_,?_⟩
    · simp only [Script.perform,performs,Option.bind_some]
      exact ends
    · rw [final,stored]
      rfl

-- mmio_write32 0x1000 $(or $(and $(mmio_read32 0x1000) 0xffff00ff) $(shl 0x12 8))
theorem script_meaning_field :
    let machine : Machine := ⟨⟨12,by decide⟩,fun _ => 3,fun _ _ => some 0⟩
    let field : Word := .operate .or
      (.operate .and
        (.load (makeCmdWithParamsSize "mmio_read32" .mmioReadX (.mmapFileFlags true) mmioRdParams 32) (by decide)
          (.typed (Arg.of "0x1000")))
        (.typed (Arg.of "0xffff00ff")))
      (.operate .shl (.typed (Arg.of "0x12")) (.typed (Arg.of "8")))
    let line : Line := ⟨makeCmdWithParamsSize "mmio_write32" .mmioWriteX (.mmapFileFlags true) mmioWrParams 32,by decide,
      .typed (Arg.of "0x1000"),field⟩
    ∃ s', Script.perform .x86_64 (groups .x86_64) 9 machine.kernel [line] ⟨fun _ => 0xaa,none,none⟩ = some s' ∧
      s'.memory.load 0x1000 4 = [0xaa,0x12,0xaa,0xaa] := by
  intro machine field line
  have maps : machine.Maps := fun _ _ _ => rfl
  have inside : (BitVec.ofNat 64 (operand (Arg.of "8"))).toNat < 64 := by decide +kernel
  obtain ⟨s',performs,memory⟩ := script_meaning .x86_64 rfl (groups .x86_64) (.refl _) 9 (by decide) machine maps [line]
    ⟨fun _ => 0xaa,none,none⟩ ⟨trivial,⟨⟨trivial,trivial,trivial⟩,⟨trivial,trivial,inside⟩,trivial⟩,trivial⟩
  refine ⟨s',performs,?_⟩
  rw [memory]
  decide +kernel

end Iotools
