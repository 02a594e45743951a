import Iotools.ChipId
import Iotools.CpuPinning
import Iotools.ProgramContracts
import Iotools.Sessions

namespace Iotools
open Bytes Numeral Interaction

-- A machine with so many cpus, the mask of the process that runs, and what has
-- been started, each with its mask.
structure Cpus where
  count : Nat
  mask : CpuSet
  started : List (CpuSet × List Text)

def Cpus.kernel (b : Build) : Kernel Sys Cpus := fun c s =>
  match c with
  | .sysconf => ((s.count : Int),s)
  | .setaffinity mask => if ∃ cpu < s.count, CpuSet.has b mask cpu = true then ((0 : Int),{s with mask := mask}) else ((-1 : Int),s)
  | .execvp argv => ((),{s with started := s.started ++ [(s.mask,argv)]})
  | c => (c.succeeds,s)

def isBlank (c : Char) : Bool := c = ' ' || c = '\t' || c = '\n'
def shellWords (text : Text) : List Text := (text.splitOnP isBlank).filter (· ≠ [])

def Arg.word (text : Text) : Option Arg :=
  if plain : '\x00' ∉ text ∧ text.length ≤ intMax then some ⟨text,plain.1,plain.2⟩ else none

theorem shellWords_line {word : Text} (plain : ∀ c ∈ word, isBlank c = false) (some_ : word ≠ []) (rest : Text) :
    shellWords (word ++ "\n".toList ++ rest) = word :: shellWords rest := by
  have newline : isBlank '\n' = true := by decide
  have text : word ++ "\n".toList ++ rest = word ++ '\n' :: rest := by simp
  unfold shellWords
  rw [text,List.splitOnP_append_cons word rest newline,List.splitOnP_eq_singleton plain,List.filter_append]
  simp [some_]

theorem shellWords_nil : shellWords [] = [] := by simp [shellWords,List.splitOnP_nil]

theorem decimal_blank (value : Int) : ∀ c ∈ decimal value, isBlank c = false := by
  intro c member
  have other (blank : Char) (letter : isDigit 10 blank = false) (sign_ : blank ≠ '-') : c ≠ blank := by
    intro same
    subst same
    exact decimal_plain value letter sign_ member
  have space : c ≠ ' ' := other ' ' (by decide) (by decide)
  have tab : c ≠ '\t' := other '\t' (by decide) (by decide)
  have newline : c ≠ '\n' := other '\n' (by decide) (by decide)
  simp [isBlank,space,tab,newline]

theorem decimal_some (value : Nat) : decimal value ≠ [] := by
  intro empty
  have found := (decimal_literal value).subject
  rw [empty,subject_nil] at found
  cases found

def cpuLine (cpu : Nat) : Text := decimal cpu ++ "\n".toList

theorem shellWords_cpus (cpus : List Nat) : shellWords (cpus.flatMap cpuLine) = cpus.map (fun (cpu : Nat) => decimal cpu) := by
  induction cpus with
  | nil => exact shellWords_nil
  | cons cpu rest ih =>
    rw [List.flatMap_cons,List.map_cons,cpuLine,shellWords_line (decimal_blank cpu) (decimal_some cpu),ih]

section Run
variable (b : Build) (stack : (size : Nat) → Buffer size)

theorem listCpus_exec (first left : Nat) (s : Cpus) :
    ∃ trace, (listCpus first left).exec (onStack stack (Cpus.kernel b)) s = ⟨trace,.ok (),s⟩ ∧
      printed trace = (List.range' first left).flatMap cpuLine := by
  induction left generalizing first with
  | zero => exact ⟨[],rfl,rfl⟩
  | succ left ih =>
    obtain ⟨trace,run,text⟩ := ih (first + 1)
    have said : onStack stack (Cpus.kernel b) (.stdout (cpuLine first)) s = ((),s) := rfl
    refine ⟨⟨.stdout (cpuLine first),()⟩ :: trace,?_,?_⟩
    · unfold listCpus
      rw [Prog.call_bind,Prog.exec_step said,Prog.done_bind,run]
      rfl
    · rw [printed_cons,text,List.range'_succ,List.flatMap_cons]
      rfl

theorem cpuList_exec (glibc : b.libc = .glibc) (argv : List Arg) (info : CmdInfo) (s : Cpus) (few : s.count < 2 ^ 31) :
    ∃ trace, (cpuList b argv info).exec (onStack stack (Cpus.kernel b)) s = ⟨trace,.ok 0,s⟩ ∧
      printed trace = (List.range s.count).flatMap cpuLine := by
  have counts : onStack stack (Cpus.kernel b) .sysconf s = ((s.count : Int),s) := rfl
  have int : (toInt (s.count : Int)).toNat = s.count := by
    unfold toInt
    omega
  obtain ⟨trace,run,text⟩ := listCpus_exec b stack 0 s.count s
  refine ⟨⟨.sysconf,(s.count : Int)⟩ :: trace,?_,?_⟩
  · unfold cpuList
    rw [glibc]
    dsimp only
    rw [Prog.call_bind,Prog.exec_step counts,Prog.done_bind]
    rw [int,Prog.exec_seq run]
    simp [Run.prepend]
  · rw [printed_cons,text,← List.range_eq_range']
    rfl

theorem runon_exec (glibc : b.libc = .glibc) {cpu : Nat} (name word cmd : Arg) (args : List Arg) (info : CmdInfo) (s : Cpus)
    (text : word.text = decimal cpu) (present : cpu < s.count) (small : cpu < 1024) :
    ∃ mask, CpuSet.Only b mask cpu ∧
      ((runon b (name :: word :: cmd :: args) info).exec (onStack stack (Cpus.kernel b)) s).state =
        ⟨s.count,mask,s.started ++ [(mask,(cmd :: args).map Arg.text)]⟩ := by
  have operand_ : toInt (strtoulLong b 0 word.text).1 = cpu := by
    unfold strtoulLong
    rw [text,(decimal_literal cpu).strtoul (by rcases bits_cases b with ⟨_,width⟩ | ⟨_,width⟩ <;> rw [width] <;> omega)]
    unfold toInt
    omega
  have fitting : ∃ mask, cpuSet b cpu (cpuZero b (stack 128)) = .done mask ∧
      (CpuSet.Only b mask cpu ↔ PinFits b cpu cpu (stack 128)) := cpuSet_fits b (stack 128) (by omega) (fun _ _ => rfl)
  obtain ⟨mask,built,fits⟩ := fitting
  have only : CpuSet.Only b mask cpu := by
    refine fits.mpr ?_
    unfold PinFits
    rw [glibc]
    exact fun _ _ => rfl
  refine ⟨mask,only,?_⟩
  have member : ∃ cpu < s.count, CpuSet.has b mask cpu = true := by
    obtain ⟨cpu',same,_,alone⟩ := only
    have same' : cpu' = cpu := by omega
    subst same'
    exact ⟨cpu',present,by rw [alone cpu' small]; simp⟩
  have stale : onStack stack (Cpus.kernel b) (.stale 128) s = (stack 128,s) := rfl
  have handed : onStack stack (Cpus.kernel b) (.setaffinity mask) s = ((0 : Int),{s with mask := mask}) := if_pos member
  have pinned : ∃ trace, (setCpuAffinity b cpu).exec (onStack stack (Cpus.kernel b)) s = ⟨trace,.ok 0,{s with mask := mask}⟩ := by
    unfold setCpuAffinity
    rw [Prog.call_bind,Prog.exec_step stale,Prog.done_bind,built,Prog.done_bind,Prog.call_bind,Prog.exec_step handed]
    exact ⟨_,rfl⟩
  obtain ⟨trace,ran⟩ := pinned
  change ((setCpuAffinity b (toInt (strtoulLong b 0 word.text).1) >>= _).exec _ s).state = _
  rw [operand_,Prog.exec_seq ran]
  rfl

end Run

theorem word_decimal {cpu : Nat} (small : cpu < 1024) : ∃ word, Arg.word (decimal cpu) = some word ∧ word.text = decimal cpu := by
  have nul : '\x00' ∉ decimal (cpu : Int) := decimal_plain cpu (by decide) (by decide)
  have short : (decimal (cpu : Int)).length ≤ intMax := by
    have digits : (Nat.toDigits 10 cpu).length ≤ 4 := Nat.toDigits_length 10 cpu 4 (by decide) (by omega)
    have same : decimal (cpu : Int) = Nat.toDigits 10 cpu := by simp [decimal]
    rw [same]
    unfold intMax
    omega
  exact ⟨⟨decimal cpu,nul,short⟩,dif_pos ⟨nul,short⟩,rfl⟩

def called (b : Build) (order : List Group) (fuel : Nat) (argv : List Arg) : Action Int :=
  runCommand b (registerAll order) fuel (Arg.of "iotools" :: argv)

def cpuListInfo : CmdInfo := makeCmd "cpu_list" .cpuList .null

theorem sweep_listed (b : Build) : runonInfo ∈ miscCmds b ∧ cpuListInfo ∈ miscCmds b := by
  simp [miscCmds,runonInfo,cpuListInfo]

section Sweep
variable (b : Build) (glibc : b.libc = .glibc) {order : List Group} (perm : order.Perm (groups b)) {fuel : Nat}
  (enough : order.length ≤ fuel) (stack : (size : Nat) → Buffer size) (cmd : Arg) (args : List Arg)
include perm enough

theorem called_misc (listed : info ∈ miscCmds b) (name : Arg) (named : name.text = info.name.toList)
    (noIopl : ∀ p ∈ info.params, p.ioplNeeded = 0) (admitted : Admits info.params (name :: args)) :
    called b order fuel (name :: args) = info.entry.call b fuel (name :: args) info := by
  have known : info ∈ registered b := List.mem_flatMap.mpr ⟨.misc,by simp [groups],listed⟩
  unfold called
  rw [runCommand_direct perm enough known (Arg.of "iotools") name args named,runInfo_admitted b fuel noIopl admitted]

include glibc

theorem runon_each (short : args.length + 3 ≤ intMax) (cpus : List Nat) (s : Cpus)
    (present : ∀ cpu ∈ cpus, cpu < s.count ∧ cpu < 1024) :
    ∃ masks, List.Forall₂ (fun (cpu : Nat) mask => CpuSet.Only b mask cpu) cpus masks ∧
      (Prog.session (onStack stack (Cpus.kernel b)) (((cpus.map fun (cpu : Nat) => decimal cpu).filterMap Arg.word).map fun word =>
        called b order fuel (Arg.of "runon" :: word :: cmd :: args)) s).started =
        s.started ++ masks.map (fun mask => (mask,(cmd :: args).map Arg.text)) := by
  induction cpus generalizing s with
  | nil => exact ⟨[],.nil,by simp⟩
  | cons cpu rest ih =>
    obtain ⟨inside,small⟩ := present cpu (by simp)
    obtain ⟨word,taken,text⟩ := word_decimal small
    have admitted : Admits runonInfo.params (Arg.of "runon" :: word :: cmd :: args) := by
      intro p given
      cases given
      simp only [runonParams,varArgs,List.length_cons]
      omega
    have entered : called b order fuel (Arg.of "runon" :: word :: cmd :: args) =
        runon b (Arg.of "runon" :: word :: cmd :: args) runonInfo :=
      called_misc b perm enough _ (sweep_listed b).1 (Arg.of "runon") (by decide) pinParams_noIopl.1 admitted
    obtain ⟨mask,only,after⟩ := runon_exec b stack glibc (Arg.of "runon") word cmd args runonInfo s text inside small
    obtain ⟨masks,each_,started⟩ := ih ⟨s.count,mask,s.started ++ [(mask,(cmd :: args).map Arg.text)]⟩
      (fun cpu member => present cpu (by simp [member]))
    refine ⟨mask :: masks,.cons only each_,?_⟩
    rw [List.map_cons,List.filterMap_cons_some taken,List.map_cons,Prog.session_cons,entered,after,started]
    simp

end Sweep

-- Whoever runs a command on each listed cpu runs it on every cpu of the machine,
-- once on each and in their order, with a mask that holds this cpu alone.
theorem cpu_sweep (b : Build) (glibc : b.libc = .glibc) (order : List Group) (perm : order.Perm (groups b)) (fuel : Nat)
    (enough : order.length ≤ fuel) (stack : (size : Nat) → Buffer size) (s : Cpus) (few : s.count ≤ 1024) (cmd : Arg)
    (args : List Arg) (short : args.length + 3 ≤ intMax) :
    let kernel := onStack stack (Cpus.kernel b)
    let listed := (called b order fuel [Arg.of "cpu_list"]).exec kernel s
    let words := (shellWords (printed listed.trace)).filterMap Arg.word
    let swept := Prog.session kernel (words.map fun word => called b order fuel (Arg.of "runon" :: word :: cmd :: args)) listed.state
    listed.outcome = .ok 0 ∧ ∃ masks,
      List.Forall₂ (fun (cpu : Nat) mask => CpuSet.Only b mask cpu) (List.range s.count) masks ∧
      swept.started = s.started ++ masks.map (fun mask => (mask,(cmd :: args).map Arg.text)) := by
  intro kernel listed words swept
  have entered : called b order fuel [Arg.of "cpu_list"] = cpuList b [Arg.of "cpu_list"] cpuListInfo :=
    called_misc b perm enough [] (sweep_listed b).2 (Arg.of "cpu_list") (by decide) (by simp [cpuListInfo,makeCmd])
      (by simp [cpuListInfo,makeCmd,Admits])
  obtain ⟨trace,run,text⟩ := cpuList_exec b stack glibc [Arg.of "cpu_list"] cpuListInfo s (by omega)
  have whole : listed = ⟨trace,.ok 0,s⟩ := by
    change (called b order fuel [Arg.of "cpu_list"]).exec _ s = _
    rw [entered,run]
  obtain ⟨masks,each_,started⟩ := runon_each b glibc perm enough stack cmd args short (List.range s.count) s
    (fun cpu member => ⟨List.mem_range.mp member,(List.mem_range.mp member).trans_le few⟩)
  refine ⟨by rw [whole],masks,each_,?_⟩
  have names : words = ((List.range s.count).map fun (cpu : Nat) => decimal cpu).filterMap Arg.word := by
    change (shellWords (printed listed.trace)).filterMap Arg.word = _
    rw [whole]
    dsimp only
    rw [text,shellWords_cpus]
  change (Prog.session kernel (words.map _) listed.state).started = _
  rw [names,whole]
  exact started

theorem cpu_sweep_three :
    let kernel := onStack (fun _ _ => 0xff) (Cpus.kernel .x86_64)
    let listed := (called .x86_64 (groups .x86_64) 9 [Arg.of "cpu_list"]).exec kernel ⟨3,Buffer.zero,[]⟩
    let swept := Prog.session kernel (((shellWords (printed listed.trace)).filterMap Arg.word).map fun word =>
      called .x86_64 (groups .x86_64) 9 [Arg.of "runon",word,Arg.of "hostname"]) listed.state
    ∃ masks, List.Forall₂ (fun (cpu : Nat) mask => CpuSet.Only .x86_64 mask cpu) [0,1,2] masks ∧
      swept.started = masks.map (fun mask => (mask,["hostname".toList])) := by
  intro kernel listed swept
  obtain ⟨_,masks,each_,started⟩ := cpu_sweep .x86_64 rfl (groups .x86_64) (.refl _) 9 (by decide) (fun _ _ => 0xff)
    ⟨3,Buffer.zero,[]⟩ (by decide) (Arg.of "hostname") [] (by decide)
  exact ⟨masks,each_,started.trans (by simp [Arg.of,intMax])⟩

end Iotools
