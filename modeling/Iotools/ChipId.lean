import Iotools.MmioAccess

namespace Iotools
open Bytes Numeral Interaction

def cText (bytes : List UInt8) : Text := (bytes.map (fun byte => Char.ofNat byte.toNat)).takeWhile (· ≠ '\x00')

def pirOf (b : Build) (bytes : List UInt8) : Nat := (strtoulLong b 16 (cText bytes)).1 % 2 ^ 32

-- The number has ended before the text does: at a NUL, or at a character that
-- is none of its digits.
def PirEnds (bytes : List UInt8) : Prop := 0 ∈ bytes ∨ EndsInside (cText bytes)

theorem char_zero (byte : UInt8) : Char.ofNat byte.toNat = '\x00' ↔ byte = 0 := by
  constructor
  · intro zero
    have small := byte.toNat_lt
    have valid : byte.toNat.isValidChar := .inl (by omega)
    have same : (Char.ofNat byte.toNat).toNat = byte.toNat := by
      rw [Char.ofNat,dif_pos valid]
      rfl
    rw [zero] at same
    exact UInt8.toNat_inj.mp same.symm
  · rintro rfl
    rfl

theorem cText_closed (closed : 0 ∈ bytes) (rest : List UInt8) :
    cText (bytes ++ rest) = cText bytes ∧ (cText bytes).length < bytes.length := by
  induction bytes with
  | nil => cases closed
  | cons byte bytes ih =>
    by_cases zero : byte = 0
    · subst zero
      exact ⟨rfl,Nat.succ_pos _⟩
    · have plain : ¬ Char.ofNat byte.toNat = '\x00' := mt (char_zero byte).mp zero
      have later : 0 ∈ bytes := by
        rcases List.mem_cons.mp closed with rfl | later
        · exact absurd rfl zero
        · exact later
      obtain ⟨same,shorter⟩ := ih later
      unfold cText at same shorter ⊢
      simp only [List.cons_append,List.map_cons,List.takeWhile_cons,plain,ne_eq,not_false_eq_true,decide_true,if_true,
        List.length_cons]
      exact ⟨congrArg _ same,Nat.succ_lt_succ shorter⟩

theorem cText_open (open_ : 0 ∉ bytes) (rest : List UInt8) :
    cText (bytes ++ rest) = cText bytes ++ cText rest ∧ (cText bytes).length = bytes.length := by
  induction bytes with
  | nil => exact ⟨rfl,rfl⟩
  | cons byte bytes ih =>
    obtain ⟨first,later⟩ := List.ne_and_not_mem_of_not_mem_cons open_
    have plain : ¬ Char.ofNat byte.toNat = '\x00' := mt (char_zero byte).mp (Ne.symm first)
    obtain ⟨same,whole⟩ := ih later
    unfold cText at same whole ⊢
    simp only [List.cons_append,List.map_cons,List.takeWhile_cons,plain,ne_eq,not_false_eq_true,decide_true,if_true,
      List.length_cons]
    exact ⟨congrArg _ same,congrArg _ whole⟩

theorem parsePir_read (b : Build) (stale : Buffer 64) (fits : bytes.length ≤ 64) :
    parsePir b (stale.patch 0 bytes) =
      let text := cText (bytes ++ (List.ofFn stale).drop bytes.length)
      if text.length = 64 ∧ (wholeValue 16 (text ++ ['0'])).isSome then .error (.fault .pastNul)
      else .ok ((strtoulLong b 16 text).1 % 2 ^ 32) := by
  unfold parsePir
  rw [Buffer.ofFn_patch stale bytes fits]
  rfl

-- A number that has ended is read whatever the stack holds behind it.
theorem parsePir_ends (b : Build) (stale : Buffer 64) (fits : bytes.length ≤ 64) (ends : PirEnds bytes) :
    parsePir b (stale.patch 0 bytes) = .ok (pirOf b bytes) := by
  rw [parsePir_read b stale fits]
  dsimp only
  generalize (List.ofFn stale).drop bytes.length = rest
  by_cases closed : 0 ∈ bytes
  · obtain ⟨same,shorter⟩ := cText_closed closed rest
    rw [same,if_neg (fun full => by omega)]
    rfl
  · have inside := ends.resolve_left closed
    obtain ⟨same,_⟩ := cText_open closed rest
    have stops : wholeValue 16 (cText bytes ++ cText rest ++ ['0']) = none := inside.append (cText rest)
    rw [same,stops,if_neg (by simp)]
    unfold strtoulLong pirOf
    rw [inside.strtoul_append]
    rfl

-- One that has not ended runs on, and off the end of the buffer when the stack
-- holds digits.
theorem parsePir_runs_on (b : Build) (fits : bytes.length ≤ 64) (runs_on : ¬ PirEnds bytes) :
    parsePir b (Buffer.patch (fun _ => 48) 0 bytes) = .error (.fault .pastNul) := by
  rw [parsePir_read b _ fits]
  dsimp only
  obtain ⟨open_,inside⟩ := not_or.mp runs_on
  have digits (count : Nat) : cText (List.replicate count 48) = List.replicate count '0' := by
    induction count with
    | zero => rfl
    | succ count ih =>
      rw [List.replicate_succ,List.replicate_succ,← ih]
      rfl
  have stack : (List.ofFn (fun _ => 48 : Buffer 64)).drop bytes.length = List.replicate (64 - bytes.length) 48 := by
    rw [List.ofFn_const,List.drop_replicate]
  obtain ⟨same,whole⟩ := cText_open open_ (List.replicate (64 - bytes.length) 48)
  rw [stack,same,digits]
  have full : (cText bytes ++ List.replicate (64 - bytes.length) '0').length = 64 := by
    rw [List.length_append,List.length_replicate,whole]
    omega
  have taken := endsInside_zeros (cText bytes) inside (64 - bytes.length)
  unfold EndsInside at taken
  rw [if_pos ⟨full,Option.isSome_iff_ne_none.mpr taken⟩]

theorem pirLine_ends (pir : Nat) (line : cText bytes = hexLower 0 pir ++ ['\n']) : PirEnds bytes := by
  right
  rw [line]
  exact endsInside_hexLine 0 pir

theorem pirLine_pirOf (b : Build) (pir : Nat) (small : pir < 2 ^ 32) (line : cText bytes = hexLower 0 pir ++ ['\n']) :
    pirOf b bytes = pir := by
  have wide : pir < 2 ^ b.long.bits := by
    cases b.long with
    | w32 => exact small
    | w64 => exact lt_trans small (by decide)
  unfold pirOf strtoulLong
  rw [line,strtoul_of_subject (subject_hexLine 0 pir []) wide]
  exact Nat.mod_eq_of_lt small

def nodePattern (core : Nat) : Text := "/proc/device-tree/cpus/*@".toList ++ hexLower 0 core ++ "/ibm,chip-id".toList

-- A machine with this content on the stack.
def onStack (stack : (size : Nat) → Buffer size) (kernel : Kernel Sys σ) : Kernel Sys σ := fun c s =>
  match c with
  | .stale size => (stack size,s)
  | c => kernel c s

-- How both helpers read their file: once, and whatever comes of it.
def fetch (path : Text) (size : Nat) (next : {bytes : List UInt8 // bytes.length ≤ size} → Action (Option α)) :
    Action (Option α) := do
  let fd ← ask (.open path ⟨.rdonly,false⟩)
  if fd < 0 then do
    complain (.openDevice path)
    return none
  else do
    match ← ask (.read fd size) with
    | none => do
      complain .read
      ask (.close fd)
      return none
    | some bytes => do
      ask (.close fd)
      next bytes

theorem cpuToPir_fetch (b : Build) (cpu : Int) :
    cpuToPir b cpu = .call (.stale 64) fun pirStr =>
      fetch (pirFile cpu) 64 fun bytes => report (parsePir b (pirStr.patch 0 bytes.val)) := by
  unfold cpuToPir fetch
  simp only [Prog.call_bind,Prog.done_bind]
  congr 1
  funext pirStr
  congr 1
  funext fd
  split
  · rfl
  · congr 1
    funext answer
    cases answer <;> rfl

theorem pirToChipid_fetch (pir : Nat) (chipid : Buffer 4) :
    pirToChipid pir chipid = .call (.glob (nodePattern (pir - pir % 8))) fun
      | .error code => .call (.stderr (.glob (nodePattern (pir - pir % 8)) code)) fun _ => .done none
      | .ok path => fetch path 4 fun bytes => .done (some (chipid.patch 0 bytes.val)) := by
  unfold pirToChipid nodePattern fetch
  simp only [Prog.call_bind,Prog.done_bind]
  congr 1
  funext answer
  cases answer with
  | error code => rfl
  | ok path =>
    dsimp only
    congr 1
    funext fd
    split
    · rfl
    · congr 1
      funext answer
      cases answer <;> rfl

def fileRead (kernel : Kernel Sys σ) (path : Text) (size : Nat) (s : σ) :
    Option (Int × {bytes : List UInt8 // bytes.length ≤ size} × σ) :=
  match kernel (.open path ⟨.rdonly,false⟩) s with
  | (fd,opened) =>
    if fd < (0 : Int) then none
    else
      match kernel (.read fd size) opened with
      | (none,_) => none
      | (some bytes,taken) => some (fd,bytes,(kernel (.close fd) taken).2)

def HandsNothing (run : Run Sys Fault (Option α) σ) : Prop := run.outcome = .ok none ∧ printed run.trace = []

section Machine
variable (b : Build) (stack : (size : Nat) → Buffer size) (kernel : Kernel Sys σ)

theorem fetch_nothing {s : σ} (missing : fileRead kernel path size s = none)
    (next : {bytes : List UInt8 // bytes.length ≤ size} → Action (Option α)) :
    HandsNothing ((fetch path size next).exec (onStack stack kernel) s) := by
  unfold fileRead at missing
  rcases opened : kernel (.open path ⟨.rdonly,false⟩) s with ⟨fd,s1⟩
  have opens : onStack stack kernel (.open path ⟨.rdonly,false⟩) s = (fd,s1) := opened
  rw [opened] at missing
  dsimp only at missing
  simp only [fetch,complain,Prog.call_bind,Prog.done_bind]
  rw [Prog.exec_step opens]
  split
  · exact ⟨rfl,rfl⟩
  · rename_i valid
    rcases taken : kernel (.read fd size) s1 with ⟨answer,s2⟩
    have takes : onStack stack kernel (.read fd size) s1 = (answer,s2) := taken
    rw [if_neg valid,taken] at missing
    rw [Prog.exec_step takes]
    cases answer with
    | none => exact ⟨rfl,rfl⟩
    | some bytes => cases missing

theorem fetch_reads {s : σ} (found : fileRead kernel path size s = some (fd,bytes,s'))
    (next : {bytes : List UInt8 // bytes.length ≤ size} → Action (Option α)) :
    (fetch path size next).exec (onStack stack kernel) s =
      ((next bytes).exec (onStack stack kernel) s').prepend
        ([⟨.open path ⟨.rdonly,false⟩,fd⟩,⟨.read fd size,some bytes⟩,⟨.close fd,()⟩] : Trace Sys) := by
  unfold fileRead at found
  rcases opened : kernel (.open path ⟨.rdonly,false⟩) s with ⟨fd',s1⟩
  have opens : onStack stack kernel (.open path ⟨.rdonly,false⟩) s = (fd',s1) := opened
  rw [opened] at found
  dsimp only at found
  simp only [fetch,complain,Prog.call_bind,Prog.done_bind]
  rw [Prog.exec_step opens]
  split at found
  · cases found
  · rename_i valid
    rcases taken : kernel (.read fd' size) s1 with ⟨answer,s2⟩
    have takes : onStack stack kernel (.read fd' size) s1 = (answer,s2) := taken
    rw [taken] at found
    rw [if_neg valid,Prog.exec_step takes]
    cases answer with
    | none => cases found
    | some bytes' =>
      cases found
      rfl

end Machine

def Fails (run : Run Sys Fault Int σ) : Prop := (∃ code : Int, run.outcome = .ok code ∧ code < 0) ∧ printed run.trace = []

theorem Fails.prepend {run : Run Sys Fault Int σ} (fails : Fails run) (quiet : printed before = []) :
    Fails (run.prepend before) := by
  refine ⟨fails.1,?_⟩
  rw [Run.prepend_trace,printed_append,quiet,fails.2]
  rfl

theorem HandsNothing.fails {program : Action (Option α)} {next : Option α → Action Int} {kernel : Kernel Sys σ} {s : σ}
    (nothing : HandsNothing (program.exec kernel s)) (stops : next none = .done (-1)) :
    Fails ((program >>= next).exec kernel s) := by
  rw [Prog.exec_bind,nothing.1]
  dsimp only
  rw [stops]
  refine ⟨⟨-1,rfl,by decide⟩,?_⟩
  rw [printed_append,nothing.2]
  rfl

def chipidLine (b : Build) : Option (Buffer 4) → Action Int
  | none => .done (-1)
  | some chipid => .call (.stdout (valueLine 4 (decode b.order (List.ofFn chipid)))) fun _ => .done 0

def locate (b : Build) (stale : Buffer 4) : Option Nat → Action Int
  | none => .done (-1)
  | some pir => pirToChipid pir stale >>= chipidLine b

def cpuNumber (b : Build) (cpu : Arg) : Int := toInt (strtoulLong b 0 cpu.text).1

theorem cpuToChipid_given (b : Build) (name cpu : Arg) (info : CmdInfo) :
    cpuToChipid b [name,cpu] info = .call (.stale 4) fun stale =>
      cpuToPir b (cpuNumber b cpu) >>= locate b stale := by
  have at_one : argAt [name,cpu] 1 = .done cpu.text := rfl
  unfold cpuToChipid
  rw [at_one]
  simp only [Prog.call_bind,Prog.done_bind]
  rfl

theorem scomCmds_cpuToChipid (member : info ∈ scomCmds) (entry : info.entry = .cpuToChipid) :
    info.params = some scomCpuParams := by
  simp only [scomCmds,List.mem_cons,List.not_mem_nil,or_false] at member
  rcases member with rfl | rfl | rfl | rfl
  · cases entry
  · cases entry
  · rfl
  · cases entry

theorem cpuToChipid_call (b : Build) (fuel : Nat) (member : info ∈ scomCmds) (entry : info.entry = .cpuToChipid)
    (name cpu : Arg) : runInfo b fuel [name,cpu] info = cpuToChipid b [name,cpu] info := by
  have params := scomCmds_cpuToChipid member entry
  rw [runInfo_admitted b fuel (by simp [params,scomCpuParams,fixedArgs]) (by simp [Admits,params,scomCpuParams,fixedArgs]),
    entry]
  rfl

def pirEvents (stack : (size : Nat) → Buffer size) (cpu : Int) (fd : Int)
    (text : {bytes : List UInt8 // bytes.length ≤ 64}) : Trace Sys :=
  [⟨.stale 4,stack 4⟩,⟨.stale 64,stack 64⟩,⟨.open (pirFile cpu) ⟨.rdonly,false⟩,fd⟩,⟨.read fd 64,some text⟩,⟨.close fd,()⟩]

def cellEvents (core : Nat) (path : Text) (node : Int) (cell : {bytes : List UInt8 // bytes.length ≤ 4}) : Trace Sys :=
  [⟨.glob (nodePattern core),.ok path⟩,⟨.open path ⟨.rdonly,false⟩,node⟩,⟨.read node 4,some cell⟩,⟨.close node,()⟩]

section Run
variable (b : Build) (name cpu : Arg) (info : CmdInfo) (stack : (size : Nat) → Buffer size) (kernel : Kernel Sys σ)

theorem chipid_starts (s : σ) :
    (cpuToChipid b [name,cpu] info).exec (onStack stack kernel) s =
      ((fetch (pirFile (cpuNumber b cpu)) 64 (fun bytes => report (parsePir b ((stack 64).patch 0 bytes.val))) >>=
        locate b (stack 4)).exec (onStack stack kernel) s).prepend
          ([⟨.stale 4,stack 4⟩,⟨.stale 64,stack 64⟩] : Trace Sys) := by
  have first : onStack stack kernel (.stale 4) s = (stack 4,s) := rfl
  have second : onStack stack kernel (.stale 64) s = (stack 64,s) := rfl
  rw [cpuToChipid_given,cpuToPir_fetch,Prog.exec_step first,Prog.call_bind,Prog.exec_step second,Run.prepend_prepend]
  rfl

theorem chipid_no_pir {s : σ} (missing : fileRead kernel (pirFile (cpuNumber b cpu)) 64 s = none) :
    Fails ((cpuToChipid b [name,cpu] info).exec (onStack stack kernel) s) := by
  have nothing := fetch_nothing stack kernel missing
    (fun bytes => report (parsePir b ((stack 64).patch 0 bytes.val)))
  rw [chipid_starts]
  exact (nothing.fails rfl).prepend rfl

theorem chipid_pir {s : σ} (found : fileRead kernel (pirFile (cpuNumber b cpu)) 64 s = some (fd,text,s')) :
    (cpuToChipid b [name,cpu] info).exec (onStack stack kernel) s =
      ((report (parsePir b ((stack 64).patch 0 text.val)) >>= locate b (stack 4)).exec (onStack stack kernel) s').prepend
        (pirEvents stack (cpuNumber b cpu) fd text) := by
  have reads := fetch_reads stack kernel found (fun bytes => report (parsePir b ((stack 64).patch 0 bytes.val)))
  rw [chipid_starts,Prog.exec_after reads,Run.prepend_prepend]
  rfl

theorem chipid_ends {s : σ} (found : fileRead kernel (pirFile (cpuNumber b cpu)) 64 s = some (fd,text,s'))
    (ends : PirEnds text.val) :
    (cpuToChipid b [name,cpu] info).exec (onStack stack kernel) s =
      ((pirToChipid (pirOf b text.val) (stack 4) >>= chipidLine b).exec (onStack stack kernel) s').prepend
        (pirEvents stack (cpuNumber b cpu) fd text) := by
  rw [chipid_pir b name cpu info stack kernel found,parsePir_ends b (stack 64) text.property ends]
  rfl

theorem chipid_runs_on {s : σ} (found : fileRead kernel (pirFile (cpuNumber b cpu)) 64 s = some (fd,text,s'))
    (runs_on : ¬ PirEnds text.val) :
    ((cpuToChipid b [name,cpu] info).exec (onStack (fun _ _ => 48) kernel) s).outcome = .error .pastNul := by
  rw [chipid_pir b name cpu info _ kernel found,parsePir_runs_on b text.property runs_on]
  rfl

theorem locate_no_node {pir : Nat} {s : σ} (missing : kernel (.glob (nodePattern (pir - pir % 8))) s = (.error code,s')) :
    Fails ((pirToChipid pir (stack 4) >>= chipidLine b).exec (onStack stack kernel) s) := by
  have globs : onStack stack kernel (.glob (nodePattern (pir - pir % 8))) s = (.error code,s') := missing
  rw [pirToChipid_fetch,Prog.call_bind,Prog.exec_step globs]
  exact ⟨⟨-1,rfl,by decide⟩,rfl⟩

theorem locate_node {pir : Nat} {s : σ} (node : kernel (.glob (nodePattern (pir - pir % 8))) s = (.ok path,s')) :
    (pirToChipid pir (stack 4) >>= chipidLine b).exec (onStack stack kernel) s =
      ((fetch path 4 (fun bytes => .done (some ((stack 4).patch 0 bytes.val))) >>= chipidLine b).exec
        (onStack stack kernel) s').prepend ([⟨.glob (nodePattern (pir - pir % 8)),.ok path⟩] : Trace Sys) := by
  have globs : onStack stack kernel (.glob (nodePattern (pir - pir % 8))) s = (.ok path,s') := node
  rw [pirToChipid_fetch,Prog.call_bind,Prog.exec_step globs]

theorem locate_no_cell {pir : Nat} {s : σ} (node : kernel (.glob (nodePattern (pir - pir % 8))) s = (.ok path,s'))
    (missing : fileRead kernel path 4 s' = none) :
    Fails ((pirToChipid pir (stack 4) >>= chipidLine b).exec (onStack stack kernel) s) := by
  have nothing := fetch_nothing stack kernel missing (fun bytes => .done (some ((stack 4).patch 0 bytes.val)))
  rw [locate_node b stack kernel node]
  exact (nothing.fails rfl).prepend rfl

theorem locate_cell {pir : Nat} {s : σ} (node : kernel (.glob (nodePattern (pir - pir % 8))) s = (.ok path,s'))
    (found : fileRead kernel path 4 s' = some (fd,cell,s'')) :
    ∃ final, (pirToChipid pir (stack 4) >>= chipidLine b).exec (onStack stack kernel) s =
      ⟨cellEvents (pir - pir % 8) path fd cell ++
        [⟨.stdout (valueLine 4 (decode b.order (List.ofFn ((stack 4).patch 0 cell.val)))),()⟩],.ok 0,final⟩ := by
  rw [locate_node b stack kernel node,Prog.exec_after (fetch_reads stack kernel found _)]
  exact ⟨_,rfl⟩

end Run

-- The command does its work: it fails, or prints what the four bytes say that
-- it read from the node of the core.
def ReportsChip (b : Build) (cpu : Int) (run : Run Sys Fault Int σ) : Prop :=
  Fails run ∨
  ∃ (fd : Int) (text : {bytes : List UInt8 // bytes.length ≤ 64}) (path : Text) (node : Int)
    (cell : {bytes : List UInt8 // bytes.length ≤ 4}),
    List.Sublist ([⟨.open (pirFile cpu) ⟨.rdonly,false⟩,fd⟩,⟨.read fd 64,some text⟩,
      ⟨.glob (nodePattern (pirOf b text.val - pirOf b text.val % 8)),.ok path⟩,⟨.open path ⟨.rdonly,false⟩,node⟩,
      ⟨.read node 4,some cell⟩] : Trace Sys) run.trace ∧
    cell.val.length = 4 ∧ run.outcome = .ok 0 ∧ printed run.trace = valueLine 4 (decode .big cell.val)

-- Files for which it does whatever the stack holds: the number in the pir file
-- has an end, and the cell has four bytes in the order of the host.
def ChipidFits (b : Build) (cpu : Int) (kernel : Kernel Sys σ) (s : σ) : Prop :=
  ∀ fd text s1, fileRead kernel (pirFile cpu) 64 s = some (fd,text,s1) → PirEnds text.val ∧
    ∀ path s2, kernel (.glob (nodePattern (pirOf b text.val - pirOf b text.val % 8))) s1 = (.ok path,s2) →
      ∀ node cell s3, fileRead kernel path 4 s2 = some (node,cell,s3) →
        cell.val.length = 4 ∧ (b.order = .big ∨ cell.val.reverse = cell.val)

theorem pirEvents_quiet (stack : (size : Nat) → Buffer size) (cpu fd : Int)
    (text : {bytes : List UInt8 // bytes.length ≤ 64}) : printed (pirEvents stack cpu fd text) = [] := rfl

theorem events_in_order (stack : (size : Nat) → Buffer size) (cpu fd : Int)
    (text : {bytes : List UInt8 // bytes.length ≤ 64}) (core : Nat) (path : Text) (node : Int)
    (cell : {bytes : List UInt8 // bytes.length ≤ 4}) (later : Trace Sys) :
    List.Sublist ([⟨.open (pirFile cpu) ⟨.rdonly,false⟩,fd⟩,⟨.read fd 64,some text⟩,⟨.glob (nodePattern core),.ok path⟩,
      ⟨.open path ⟨.rdonly,false⟩,node⟩,⟨.read node 4,some cell⟩] : Trace Sys)
      (pirEvents stack cpu fd text ++ (cellEvents core path node cell ++ later)) := by
  simp only [pirEvents,cellEvents,List.cons_append,List.nil_append]
  apply List.Sublist.cons
  apply List.Sublist.cons
  apply List.Sublist.cons_cons
  apply List.Sublist.cons_cons
  apply List.Sublist.cons
  apply List.Sublist.cons_cons
  apply List.Sublist.cons_cons
  apply List.Sublist.cons_cons
  exact List.nil_sublist _

theorem cellEvents_only (member : (⟨.read node 4,some cell⟩ : Event Sys) ∈
    pirEvents stack cpu fd text ++ (cellEvents core path node' cell' ++ [⟨.stdout line,()⟩])) : cell = cell' := by
  simp only [pirEvents,cellEvents,List.mem_append,List.mem_cons,List.not_mem_nil,or_false] at member
  rcases member with (same | same | same | same | same) | (same | same | same | same) | same
  all_goals cases same
  rfl

section Whole
variable (b : Build) (name cpu : Arg) (info : CmdInfo) (kernel : Kernel Sys σ)

theorem chipid_prints {s : σ} (found : fileRead kernel (pirFile (cpuNumber b cpu)) 64 s = some (fd,text,s1))
    (ends : PirEnds text.val) (node : kernel (.glob (nodePattern (pirOf b text.val - pirOf b text.val % 8))) s1 = (.ok path,s2))
    (read : fileRead kernel path 4 s2 = some (fd',cell,s3)) (stack : (size : Nat) → Buffer size) :
    let run := (cpuToChipid b [name,cpu] info).exec (onStack stack kernel) s
    let line := valueLine 4 (decode b.order (List.ofFn ((stack 4).patch 0 cell.val)))
    run.trace = pirEvents stack (cpuNumber b cpu) fd text ++
      (cellEvents (pirOf b text.val - pirOf b text.val % 8) path fd' cell ++ [⟨.stdout line,()⟩]) ∧
    run.outcome = .ok 0 ∧ printed run.trace = line := by
  intro run line
  obtain ⟨final,ran⟩ := locate_cell b stack kernel node read
  have whole : run = Run.prepend (pirEvents stack (cpuNumber b cpu) fd text) ⟨_,.ok 0,final⟩ :=
    (chipid_ends b name cpu info stack kernel found ends).trans (congrArg _ ran)
  rw [whole]
  refine ⟨rfl,rfl,?_⟩
  rw [Run.prepend_trace,printed_append,printed_append]
  simp only [printed_cons,output_stdout,printed_nil,List.append_nil]
  rfl

theorem chipid_cell_fits {s : σ} (found : fileRead kernel (pirFile (cpuNumber b cpu)) 64 s = some (fd,text,s1))
    (ends : PirEnds text.val) (node : kernel (.glob (nodePattern (pirOf b text.val - pirOf b text.val % 8))) s1 = (.ok path,s2))
    (read : fileRead kernel path 4 s2 = some (fd',cell,s3)) (stack : (size : Nat) → Buffer size)
    (reports : ReportsChip b (cpuNumber b cpu) ((cpuToChipid b [name,cpu] info).exec (onStack stack kernel) s)) :
    cell.val.length = 4 ∧ (b.order = .big ∨ cell.val.reverse = cell.val) := by
  obtain ⟨trace,ended,prints⟩ := chipid_prints b name cpu info kernel found ends node read stack
  rcases reports with ⟨⟨code,failed,negative⟩,_⟩ | ⟨_,_,_,_,cell',events,four,_,line⟩
  · rw [ended] at failed
    cases failed
    cases negative
  · have member : (⟨.read _ 4,some cell'⟩ : Event Sys) ∈ _ := events.subset (List.mem_of_getLast? rfl)
    rw [trace] at member
    obtain rfl := cellEvents_only member
    refine ⟨four,?_⟩
    rw [prints,Buffer.ofFn_patch _ _ cell'.property,four,List.drop_of_length_le (by simp),List.append_nil] at line
    exact (decode_eq_big b.order cell'.val).mp (valueLine_inj.mp line)

theorem chipid_fits {s : σ} (fits : ChipidFits b (cpuNumber b cpu) kernel s) :
    ∃ text, ∀ stack, ReportsChip b (cpuNumber b cpu) ((cpuToChipid b [name,cpu] info).exec (onStack stack kernel) s) ∧
      printed ((cpuToChipid b [name,cpu] info).exec (onStack stack kernel) s).trace = text := by
  rcases found : fileRead kernel (pirFile (cpuNumber b cpu)) 64 s with _ | ⟨fd,text,s1⟩
  · refine ⟨[],?_⟩
    intro stack
    have fails := chipid_no_pir b name cpu info stack kernel found
    exact ⟨.inl fails,fails.2⟩
  · obtain ⟨ends,cells⟩ := fits fd text s1 found
    rcases node : kernel (.glob (nodePattern (pirOf b text.val - pirOf b text.val % 8))) s1 with ⟨code | path,s2⟩
    · refine ⟨[],?_⟩
      intro stack
      rw [chipid_ends b name cpu info stack kernel found ends]
      have fails := (locate_no_node b stack kernel node).prepend (pirEvents_quiet stack (cpuNumber b cpu) fd text)
      exact ⟨.inl fails,fails.2⟩
    · rcases read : fileRead kernel path 4 s2 with _ | ⟨fd',cell,s3⟩
      · refine ⟨[],?_⟩
        intro stack
        rw [chipid_ends b name cpu info stack kernel found ends]
        have fails := (locate_no_cell b stack kernel node read).prepend (pirEvents_quiet stack (cpuNumber b cpu) fd text)
        exact ⟨.inl fails,fails.2⟩
      · obtain ⟨four,order⟩ := cells path s2 node fd' cell s3 read
        refine ⟨valueLine 4 (decode .big cell.val),?_⟩
        intro stack
        obtain ⟨trace,ended,prints⟩ := chipid_prints b name cpu info kernel found ends node read stack
        rw [Buffer.ofFn_patch _ _ cell.property,four,List.drop_of_length_le (by simp),List.append_nil,
          (decode_eq_big b.order cell.val).mpr order] at prints
        refine ⟨.inr ⟨fd,text,path,fd',cell,?_,four,ended,prints⟩,prints⟩
        rw [trace]
        exact events_in_order stack _ fd text _ path fd' cell _

end Whole

-- The command does its work, and prints the same, whatever the stack holds, for
-- exactly the files that fit.
theorem chipid_iff (b : Build) (fuel : Nat) (info : CmdInfo) (member : info ∈ scomCmds) (entry : info.entry = .cpuToChipid)
    (name cpu : Arg) (kernel : Kernel Sys σ) (s : σ) :
    let run := fun stack => (runInfo b fuel [name,cpu] info).exec (onStack stack kernel) s
    ((∀ stack, ReportsChip b (cpuNumber b cpu) (run stack)) ∧
      ∀ stack stack', printed (run stack).trace = printed (run stack').trace) ↔
    ChipidFits b (cpuNumber b cpu) kernel s := by
  intro run
  have runs : run = fun stack => (cpuToChipid b [name,cpu] info).exec (onStack stack kernel) s := by
    simp only [run]
    rw [cpuToChipid_call b fuel member entry name cpu]
  rw [runs]
  constructor
  · rintro ⟨reports,_⟩ fd text s1 found
    have ends : PirEnds text.val := by
      by_contra runs_on
      have stops := chipid_runs_on b name cpu info kernel found runs_on
      rcases reports (fun _ _ => 48) with ⟨⟨code,failed,_⟩,_⟩ | ⟨_,_,_,_,_,_,_,ended,_⟩
      · cases stops.symm.trans failed
      · cases stops.symm.trans ended
    refine ⟨ends,?_⟩
    intro path s2 node fd' cell s3 read
    exact chipid_cell_fits b name cpu info kernel found ends node read _ (reports fun _ => Buffer.zero)
  · intro fits
    obtain ⟨text,same⟩ := chipid_fits b name cpu info kernel fits
    refine ⟨fun stack => (same stack).1,?_⟩
    intro stack stack'
    exact (same stack).2.trans (same stack').2.symm

def cpuToChipidInfo : CmdInfo := makeCmdWithParams "cputochipid" .cpuToChipid .null scomCpuParams

def nodePath : Text := "/proc/device-tree/cpus/PowerPC,POWER8@20/ibm,chip-id".toList

def chipFiles (text cell : List UInt8) : Kernel Sys Unit := fun c s =>
  match c with
  | .open path _ => (if path = pirFile 0 then 3 else if path = nodePath then 4 else -1,s)
  | .glob pattern => (if pattern = nodePattern 32 then .ok nodePath else .error 3,s)
  | .read fd size =>
    let file := if fd = 3 then text else cell
    (some ⟨file.take size,List.length_take_le _ _⟩,s)
  | c => (c.succeeds,s)

theorem chipFiles_pir (text cell : List UInt8) (fits : text.length ≤ 64) :
    fileRead (chipFiles text cell) (pirFile 0) 64 () = some (3,⟨text,fits⟩,()) := by
  have opened : chipFiles text cell (.open (pirFile 0) ⟨.rdonly,false⟩) () = (3,()) := by simp [chipFiles]
  have whole : text.take 64 = text := List.take_of_length_le fits
  unfold fileRead
  rw [opened]
  simp [chipFiles,whole]

theorem chipFiles_node (text cell : List UInt8) : chipFiles text cell (.glob (nodePattern 32)) () = (.ok nodePath,()) := by
  simp [chipFiles]

theorem chipFiles_cell (text cell : List UInt8) (fits : cell.length ≤ 4) :
    fileRead (chipFiles text cell) nodePath 4 () = some (4,⟨cell,fits⟩,()) := by
  have other : nodePath ≠ pirFile 0 := by decide +kernel
  have opened : chipFiles text cell (.open nodePath ⟨.rdonly,false⟩) () = (4,()) := by simp [chipFiles,other]
  have whole : cell.take 4 = cell := List.take_of_length_le fits
  unfold fileRead
  rw [opened]
  simp [chipFiles,whole]

theorem chipFiles_text : cText [0x32,0x30,0x0a] = hexLower 0 32 ++ ['\n'] := by decide +kernel

theorem chipFiles_ends : PirEnds [0x32,0x30,0x0a] := pirLine_ends 32 chipFiles_text

theorem chipFiles_core (b : Build) : pirOf b [0x32,0x30,0x0a] - pirOf b [0x32,0x30,0x0a] % 8 = 32 := by
  rw [pirLine_pirOf b 32 (by decide) chipFiles_text]

theorem cpuNumber_zero (b : Build) (long : b.long = .w64) : cpuNumber b (Arg.of "0") = 0 := by
  unfold cpuNumber strtoulLong
  rw [long]
  decide +kernel

theorem chipid_iff_big_endian :
    let run := fun stack => (runInfo .ppc64 0 (["cputochipid","0"].map Arg.of) cpuToChipidInfo).exec
      (onStack stack (chipFiles [0x32,0x30,0x0a] [0,0,0,1])) ()
    (∀ stack, ReportsChip .ppc64 0 (run stack)) ∧ ∀ stack stack', printed (run stack).trace = printed (run stack').trace := by
  have exact_ := chipid_iff .ppc64 0 cpuToChipidInfo (by decide) rfl (Arg.of "cputochipid") (Arg.of "0")
    (chipFiles [0x32,0x30,0x0a] [0,0,0,1]) ()
  rw [cpuNumber_zero .ppc64 rfl] at exact_
  refine exact_.mpr ?_
  intro fd text s1 found
  rw [chipFiles_pir _ _ (by decide)] at found
  cases found
  refine ⟨chipFiles_ends,?_⟩
  dsimp only
  rw [chipFiles_core .ppc64]
  intro path s2 node fd' cell s3 read
  rw [chipFiles_node] at node
  cases node
  rw [chipFiles_cell _ _ (by decide)] at read
  cases read
  exact ⟨rfl,.inl rfl⟩

theorem chipFiles_reports (b : Build) (long : b.long = .w64) (cell : List UInt8) (fits : cell.length ≤ 4)
    (stack : (size : Nat) → Buffer size)
    (reports : ReportsChip b 0 ((cpuToChipid b [Arg.of "cputochipid",Arg.of "0"] cpuToChipidInfo).exec
      (onStack stack (chipFiles [0x32,0x30,0x0a] cell)) ())) : cell.length = 4 ∧ (b.order = .big ∨ cell.reverse = cell) := by
  have number := cpuNumber_zero b long
  have found := chipFiles_pir [0x32,0x30,0x0a] cell (by decide)
  have node := chipFiles_node [0x32,0x30,0x0a] cell
  have read := chipFiles_cell [0x32,0x30,0x0a] cell fits
  rw [← number] at found reports
  rw [← chipFiles_core b] at node
  exact chipid_cell_fits b _ _ _ _ found chipFiles_ends node read stack reports

-- A little-endian host prints the cell backwards; and on either, a cell of two
-- bytes leaves two of the stack in the number, and a PIR without a newline runs
-- on into it.
theorem chipid_swapped :
    let run := fun (b : Build) (text cell : List UInt8) stack =>
      (runInfo b 0 (["cputochipid","0"].map Arg.of) cpuToChipidInfo).exec (onStack stack (chipFiles text cell)) ()
    (printed (run .ppc64le [0x32,0x30,0x0a] [0,0,0,1] fun _ => Buffer.zero).trace = "0x01000000\n".toList ∧
      ¬ ReportsChip .ppc64le 0 (run .ppc64le [0x32,0x30,0x0a] [0,0,0,1] fun _ => Buffer.zero)) ∧
    ¬ ReportsChip .ppc64 0 (run .ppc64 [0x32,0x30,0x0a] [0,1] fun _ => Buffer.zero) ∧
    ¬ ReportsChip .ppc64 0 (run .ppc64 [0x32,0x30] [0,0,0,1] fun _ _ => 48) := by
  intro run
  have runs (b : Build) (text cell : List UInt8) (stack : (size : Nat) → Buffer size) :
      run b text cell stack = (cpuToChipid b (["cputochipid","0"].map Arg.of) cpuToChipidInfo).exec
        (onStack stack (chipFiles text cell)) () := by
    simp only [run]
    rw [List.map_cons,List.map_cons,List.map_nil,cpuToChipid_call b 0 (by decide) rfl]
  rw [runs,runs,runs]
  refine ⟨⟨?_,?_⟩,?_,?_⟩
  · have number := cpuNumber_zero .ppc64le rfl
    have found := chipFiles_pir [0x32,0x30,0x0a] [0,0,0,1] (by decide)
    have node := chipFiles_node [0x32,0x30,0x0a] [0,0,0,1]
    have read := chipFiles_cell [0x32,0x30,0x0a] [0,0,0,1] (by decide)
    rw [← number] at found
    rw [← chipFiles_core .ppc64le] at node
    obtain ⟨_,_,prints⟩ := chipid_prints .ppc64le (Arg.of "cputochipid") (Arg.of "0") cpuToChipidInfo _ found chipFiles_ends
      node read (fun _ => Buffer.zero)
    refine prints.trans ?_
    decide +kernel
  · intro reports
    obtain ⟨_,order⟩ := chipFiles_reports .ppc64le rfl _ (by decide) _ reports
    exact absurd order (by decide)
  · intro reports
    obtain ⟨four,_⟩ := chipFiles_reports .ppc64 rfl _ (by decide) _ reports
    exact absurd four (by decide)
  · have runs_on : ¬ PirEnds [0x32,0x30] := by
      unfold PirEnds EndsInside
      decide +kernel
    have found := chipFiles_pir [0x32,0x30] [0,0,0,1] (by decide)
    rw [← cpuNumber_zero .ppc64 rfl] at found
    have stops := chipid_runs_on .ppc64 (Arg.of "cputochipid") (Arg.of "0") cpuToChipidInfo _ found runs_on
    rintro (⟨⟨code,failed,_⟩,_⟩ | ⟨_,_,_,_,_,_,_,ended,_⟩)
    · cases stops.symm.trans failed
    · cases stops.symm.trans ended

end Iotools
