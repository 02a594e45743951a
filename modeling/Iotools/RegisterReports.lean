import Mathlib.Data.List.Basic
import Iotools.PciAccess
import Iotools.Setup

namespace Iotools
open Bytes Numeral Interaction

def opensFile : Event Sys → Bool
  | ⟨.open _ _,fd⟩ => decide ((0 : Int) ≤ fd)
  | _ => false

def seeksFile : Event Sys → Bool
  | ⟨.lseek _ _,position⟩ => decide (position ≠ (-1 : Int))
  | _ => false

def movesAll (size : Nat) : Event Sys → Bool
  | ⟨.read _ _,some bytes⟩ => decide (bytes.val.length = size)
  | ⟨.write _ _,written⟩ => decide (written = (size : Int))
  | _ => false

def isWrite : Event Sys → Bool
  | ⟨.write _ _,_⟩ => true
  | _ => false

-- lseek answers -1 or an offset.
def seekLaw : Event Sys → Prop
  | ⟨.lseek _ _,position⟩ => (-1 : Int) ≤ position
  | _ => True

def Positioned (trace : Trace Sys) : Prop := trace.countP opensFile = 1 ∧ trace.any seeksFile = true

-- The command returns 0 exactly when all steps went well; a read then prints one
-- line and nothing otherwise; a write comes after the other steps went well.
def Honest (size : Nat) (reads : Bool) (trace : Trace Sys) (outcome : Except Fault Int) : Prop :=
  (outcome = .ok 0 ↔ Positioned trace ∧ trace.any (movesAll size) = true) ∧
  (reads = true → (outcome = .ok 0 → IsLine (printed trace)) ∧ (outcome ≠ .ok 0 → printed trace = [])) ∧
  ∀ before e after, trace = before ++ e :: after → isWrite e = true → Positioned before

-- The first stage opens and seeks, the second one transfers.
def calm (size : Nat) (e : Event Sys) : Prop := output e = [] ∧ isWrite e = false ∧ movesAll size e = false

def OpeningStage (size : Nat) (trace : Trace Sys) (found : Option Int) : Prop :=
  (∀ e ∈ trace, calm size e) ∧ (found.isSome = true ↔ Positioned trace)

def TransferStage (size : Nat) (reads : Bool) (trace : Trace Sys) (outcome : Except Fault Int) : Prop :=
  (∀ e ∈ trace, opensFile e = false ∧ seeksFile e = false) ∧
  (outcome = .ok 0 ↔ trace.any (movesAll size) = true) ∧
  (reads = true → (∀ e ∈ trace, isWrite e = false) ∧ (outcome = .ok 0 → IsLine (printed trace)) ∧
    (outcome ≠ .ok 0 → printed trace = []))

theorem calm_printed (all : ∀ e ∈ trace, calm size e) : printed trace = [] := by
  induction trace with
  | nil => rfl
  | cons e rest ih =>
    rw [printed_cons,(all e (by simp)).1,ih (fun e member => all e (by simp [member]))]
    rfl

theorem calm_any {trace : Trace Sys} (all : ∀ e ∈ trace, calm size e) : trace.any (movesAll size) = false := by
  rw [List.any_eq_false]
  intro e member
  simp [(all e member).2.2]

theorem positioned_append {before after : Trace Sys} (neither : ∀ e ∈ after, opensFile e = false ∧ seeksFile e = false) :
    Positioned (before ++ after) ↔ Positioned before := by
  have opens : after.countP opensFile = 0 := by
    rw [List.countP_eq_zero]
    intro e member
    simp [(neither e member).1]
  have seeks : after.any seeksFile = false := by
    rw [List.any_eq_false]
    intro e member
    simp [(neither e member).2]
  simp only [Positioned,List.countP_append,List.any_append,opens,seeks,Nat.add_zero,Bool.or_false]

theorem honest_stopped (opening : OpeningStage size trace none) : Honest size reads trace (.ok (-1)) := by
  obtain ⟨all,found⟩ := opening
  refine ⟨?_,?_,?_⟩
  · simp [calm_any all]
  · simp [calm_printed all]
  · rintro before e after rfl writes
    rw [(all e (by simp)).2.1] at writes
    cases writes

theorem honest_transferred (opening : OpeningStage size before (some fd)) (transfer : TransferStage size reads after outcome) :
    Honest size reads (before ++ after) outcome := by
  obtain ⟨all,found⟩ := opening
  obtain ⟨neither,moved,printing⟩ := transfer
  have positioned : Positioned before := found.mp rfl
  refine ⟨?_,?_,?_⟩
  · rw [positioned_append neither,List.any_append,calm_any all,Bool.false_or,moved]
    simp [positioned]
  · intro isRead
    rw [printed_append,calm_printed all,List.nil_append]
    exact (printing isRead).2
  · intro early e late split writes
    rcases List.append_eq_append_iff.mp split with ⟨middle,rfl,rest⟩ | ⟨middle,rfl,rest⟩
    · apply (positioned_append _).mpr positioned
      intro e' member
      exact neither e' (by rw [rest]; simp [member])
    · cases middle with
      | nil =>
        rw [List.append_nil] at positioned
        exact positioned
      | cons e' middle =>
        cases rest
        rw [(all e (by simp)).2.1] at writes
        cases writes

theorem honest_stages {opening : Action (Option Int)} {next : Option Int → Action Int}
    (first : opening.All (fun trace outcome => ∃ found, outcome = .ok found ∧
      ((∀ e ∈ trace, seekLaw e) → OpeningStage size trace found)))
    (stops : next none = .done (-1)) (goes : ∀ fd, (next (some fd)).All (TransferStage size reads)) :
    (opening >>= next).All (fun trace outcome => (∀ e ∈ trace, seekLaw e) → Honest size reads trace outcome) := by
  apply first.bind
  · rintro trace reason ⟨found,failed,_⟩
    cases failed
  · rintro trace value ⟨found,returned,opened⟩
    cases returned
    cases value with
    | none =>
      rw [stops]
      intro lawful
      rw [List.append_nil] at lawful ⊢
      exact honest_stopped (opened lawful)
    | some fd =>
      refine (goes fd).mono ?_
      intro later outcome transfer lawful
      exact honest_transferred (opened (fun e member => lawful e (by simp [member]))) transfer

theorem openAndSeek_opening (path : Text) (flags : OpenFlags) (offset : Int) (failed : Int → Prop) [DecidablePred failed]
    (agrees : ∀ position : Int, -1 ≤ position → (failed position ↔ position = -1)) (opening seeking : Text → Message)
    (size : Nat) :
    (openAndSeek path flags offset failed opening seeking).All (fun trace outcome => ∃ found, outcome = .ok found ∧
      ((∀ e ∈ trace, seekLaw e) → OpeningStage size trace found)) := by
  simp only [Prog.call_bind,Prog.done_bind]
  intro (fd : Int)
  dsimp only
  split
  · rename_i negative
    intro err _
    refine ⟨none,rfl,?_⟩
    intro _
    simp [OpeningStage,Positioned,calm,output,isWrite,movesAll,seeksFile]
  · rename_i valid
    intro (position : Int)
    dsimp only
    split
    · rename_i fails
      intro err _ _
      refine ⟨none,rfl,?_⟩
      intro lawful
      have bound : -1 ≤ position := lawful ⟨.lseek fd offset,position⟩ (by simp)
      have minus := (agrees position bound).mp fails
      simp [OpeningStage,Positioned,calm,output,isWrite,movesAll,seeksFile,minus]
    · rename_i works
      refine ⟨some fd,rfl,?_⟩
      intro lawful
      have bound : -1 ≤ position := lawful ⟨.lseek fd offset,position⟩ (by simp)
      have other : position ≠ -1 := fun minus => works ((agrees position bound).mpr minus)
      have opened : 0 ≤ fd := Int.not_lt.mp valid
      simp [OpeningStage,Positioned,calm,opensFile,output,isWrite,movesAll,seeksFile,other,opened]

-- open_device with the seek behind it, as both PCI commands write it.
def pciOpenAndSeek (address : PciAddress) (mode : AccessMode) : Action (Option Int) := do
  let fd ← openDevice address.seg address.bus address.dev address.func mode
  if fd < 0 then return none
  else do
    if (← ask (.lseek fd address.reg)) < 0 then do
      complain (.lseek address.reg)
      return none
    else return some fd

theorem pciOpenAndSeek_bind (address : PciAddress) (mode : AccessMode) (transfer : Int → Action Int) :
    (pciOpenAndSeek address mode >>= fun found => found.elim (.done (-1)) transfer) =
      openDevice address.seg address.bus address.dev address.func mode >>= fun fd =>
        if fd < 0 then .done (-1)
        else .call (.lseek fd address.reg) fun position =>
          if position < 0 then complain (.lseek address.reg) >>= fun _ => .done (-1) else transfer fd := by
  unfold pciOpenAndSeek
  rw [Prog.bind_assoc]
  congr 1
  funext fd
  split
  · rfl
  · simp only [Prog.call_bind,Prog.done_bind]
    congr 1
    funext position
    split
    · rfl
    · rfl

-- open_device opens one file at most: the second open is tried only when the
-- first one failed.
theorem openDevice_opens (segment bus device function : Nat) (mode : AccessMode) (size : Nat) :
    (openDevice segment bus device function mode).All (fun trace outcome => ∃ fd : Int, outcome = .ok fd ∧
      (∀ e ∈ trace, calm size e) ∧ trace.any seeksFile = false ∧ trace.countP opensFile = if fd < 0 then 0 else 1) := by
  simp only [openDevice,Prog.call_bind,Prog.done_bind]
  intro (sysfs : Int)
  dsimp only
  split
  · rename_i failed
    have first : sysfs < 0 := failed
    intro (procfs : Int)
    dsimp only
    split
    · rename_i failed'
      have second : procfs < 0 := failed'
      intro err _
      exact ⟨procfs,rfl,by simp [calm,output,isWrite,movesAll],rfl,by simp [opensFile,first,second]⟩
    · rename_i valid
      have second : ¬ procfs < 0 := valid
      exact ⟨procfs,rfl,by simp [calm,output,isWrite,movesAll],rfl,by simp [opensFile,first,second]⟩
  · rename_i valid
    have first : ¬ sysfs < 0 := valid
    simp only [Prog.pure_eq,Prog.done_bind]
    rw [if_neg first]
    exact ⟨sysfs,rfl,by simp [calm,output,isWrite,movesAll],rfl,by simp [opensFile,first]⟩

theorem pciOpenAndSeek_opening (address : PciAddress) (mode : AccessMode) (size : Nat) :
    (pciOpenAndSeek address mode).All (fun trace outcome => ∃ found, outcome = .ok found ∧
      ((∀ e ∈ trace, seekLaw e) → OpeningStage size trace found)) := by
  apply (openDevice_opens address.seg address.bus address.dev address.func mode size).bind
  · rintro trace reason ⟨fd,failed,_⟩
    cases failed
  · rintro before value ⟨fd,returned,calms,seeks,opens⟩
    cases returned
    split
    · rename_i negative
      rw [if_pos negative] at opens
      refine ⟨none,rfl,?_⟩
      intro _
      rw [List.append_nil]
      exact ⟨calms,by simp [Positioned,opens]⟩
    · rename_i valid
      rw [if_neg valid] at opens
      simp only [Prog.call_bind,Prog.done_bind]
      intro (position : Int)
      dsimp only
      split
      · rename_i failed
        intro err _
        refine ⟨none,rfl,?_⟩
        intro lawful
        have bound : -1 ≤ position := lawful ⟨.lseek value address.reg,position⟩ (by simp)
        have negative : position < 0 := failed
        have minus : position = -1 := by omega
        refine ⟨?_,by simp [Positioned,seeks,seeksFile,minus]⟩
        rw [List.forall_mem_append]
        exact ⟨calms,by simp [calm,output,isWrite,movesAll]⟩
      · rename_i works
        refine ⟨some value,rfl,?_⟩
        intro _
        have offset : ¬ position < 0 := works
        have other : position ≠ -1 := by omega
        refine ⟨?_,by simp [Positioned,opens,opensFile,seeksFile,other]⟩
        rw [List.forall_mem_append]
        exact ⟨calms,by simp [calm,output,isWrite,movesAll]⟩

def aside (e : Event Sys) : Prop :=
  match e.call with
  | .close _ | .strerror | .stderr _ | .stdout _ => True
  | _ => False

theorem aside_neither (small : aside e) (size : Nat) :
    opensFile e = false ∧ seeksFile e = false ∧ isWrite e = false ∧ movesAll size e = false := by
  obtain ⟨c,answer⟩ := e
  cases c <;> first | exact ⟨rfl,rfl,rfl,rfl⟩ | exact small.elim

section Transfers
variable {size : Nat} {reads : Bool} {e : Event Sys} {rest : Trace Sys} (others : ∀ e ∈ rest, aside e)
  (kind : opensFile e = false ∧ seeksFile e = false ∧ output e = [] ∧ (reads = true → isWrite e = false))
include others kind

theorem transfer_failed (short : movesAll size e = false) (quiet : printed rest = []) :
    TransferStage size reads (e :: rest) (.ok (-1)) := by
  obtain ⟨opens,seeks,silent,notWrite⟩ := kind
  refine ⟨?_,?_,?_⟩
  · intro e' member
    rcases List.mem_cons.mp member with rfl | later
    · exact ⟨opens,seeks⟩
    · exact ⟨(aside_neither (others e' later) size).1,(aside_neither (others e' later) size).2.1⟩
  · have none_ : rest.any (movesAll size) = false := by
      rw [List.any_eq_false]
      intro e' later
      simp [(aside_neither (others e' later) size).2.2.2]
    simp [short,none_]
  · intro isRead
    refine ⟨?_,by simp,by simp [silent,quiet]⟩
    intro e' member
    rcases List.mem_cons.mp member with rfl | later
    · exact notWrite isRead
    · exact (aside_neither (others e' later) size).2.2.1

theorem transfer_done (whole : movesAll size e = true) (line : reads = true → IsLine (printed rest)) :
    TransferStage size reads (e :: rest) (.ok 0) := by
  obtain ⟨opens,seeks,silent,notWrite⟩ := kind
  refine ⟨?_,by simp [whole],?_⟩
  · intro e' member
    rcases List.mem_cons.mp member with rfl | later
    · exact ⟨opens,seeks⟩
    · exact ⟨(aside_neither (others e' later) size).1,(aside_neither (others e' later) size).2.1⟩
  · intro isRead
    refine ⟨?_,?_,by simp⟩
    · intro e' member
      rcases List.mem_cons.mp member with rfl | later
      · exact notWrite isRead
      · exact (aside_neither (others e' later) size).2.2.1
    · intro _
      rw [printed_cons,silent]
      exact line isRead

end Transfers

def GivesUp (trace : Trace Sys) (outcome : Except Fault Int) : Prop :=
  (∀ e ∈ trace, aside e) ∧ printed trace = [] ∧ outcome = .ok (-1)

def Completes (reads : Bool) (trace : Trace Sys) (outcome : Except Fault Int) : Prop :=
  (∀ e ∈ trace, aside e) ∧ (reads = true → IsLine (printed trace)) ∧ outcome = .ok 0

theorem read_transfer {fd : Int} {size : Nat} {next : Call.Answer (.read fd size) → Action Int}
    (fails : ∀ answer, (∀ bytes, answer = some bytes → bytes.val.length ≠ size) → (next answer).All GivesUp)
    (works : ∀ bytes, bytes.val.length = size → (next (some bytes)).All (Completes true)) :
    (Prog.call (.read fd size) next : Action Int).All (TransferStage size true) := by
  intro answer
  by_cases whole : ∃ bytes, answer = some bytes ∧ bytes.val.length = size
  · obtain ⟨bytes,rfl,length⟩ := whole
    refine (works bytes length).mono ?_
    rintro trace _ ⟨others,line,rfl⟩
    exact transfer_done others ⟨rfl,rfl,rfl,fun _ => rfl⟩ (by simpa [movesAll] using length) line
  · have short : ∀ bytes, answer = some bytes → bytes.val.length ≠ size := by
      intro bytes found length
      exact whole ⟨bytes,found,length⟩
    refine (fails answer short).mono ?_
    rintro trace _ ⟨others,quiet,rfl⟩
    refine transfer_failed others ⟨rfl,rfl,rfl,fun _ => rfl⟩ ?_ quiet
    cases answer with
    | none => rfl
    | some bytes => simpa [movesAll] using short bytes rfl

theorem write_transfer {fd : Int} {bytes : List UInt8} {next : Int → Action Int} (size : Nat)
    (fails : ∀ written : Int, written ≠ (size : Int) → (next written).All GivesUp) (works : (next size).All (Completes false)) :
    (Prog.call (.write fd bytes) next : Action Int).All (TransferStage size false) := by
  intro (written : Int)
  by_cases whole : written = size
  · subst whole
    refine works.mono ?_
    rintro trace _ ⟨others,line,rfl⟩
    exact transfer_done others ⟨rfl,rfl,rfl,by simp⟩ (by simp [movesAll]) line
  · refine (fails written whole).mono ?_
    rintro trace _ ⟨others,quiet,rfl⟩
    exact transfer_failed others ⟨rfl,rfl,rfl,by simp⟩ (by simpa [movesAll] using whole) quiet

theorem readQuad_transfer (b : Build) (fd : Int) : (readQuad b fd).All (TransferStage 8 true) := by
  simp only [readQuad,complain,Prog.call_bind,Prog.done_bind,Prog.pure_eq]
  apply read_transfer
  · intro answer short
    cases answer with
    | none => exact fun _ _ _ => ⟨by simp [aside],rfl,rfl⟩
    | some bytes =>
      dsimp only
      rw [if_pos (short bytes rfl)]
      exact fun _ _ _ => ⟨by simp [aside],rfl,rfl⟩
  · intro bytes whole
    dsimp only
    rw [if_neg (not_not.mpr whole)]
    refine fun _ _ => ⟨by simp [aside],fun _ => ?_,rfl⟩
    simpa [output,valueLine] using valueLine_isLine 8 (decode b.order bytes.val)

theorem writeQuad_transfer (b : Build) (fd : Int) (data : Nat) : (writeQuad b fd data).All (TransferStage 8 false) := by
  simp only [writeQuad,complain,Prog.call_bind,Prog.done_bind,Prog.pure_eq]
  apply write_transfer 8
  · intro written short
    rw [if_pos (show written ≠ 8 from short)]
    exact fun _ _ _ => ⟨by simp [aside],rfl,rfl⟩
  · exact fun _ => ⟨by simp [aside],by simp,rfl⟩

theorem pciDoRead_transfer (b : Build) (fd : Int) (size : Nat) (leToHost : Build → Nat → Nat) :
    (pciDoRead b fd size leToHost).All (TransferStage size true) := by
  simp only [pciDoRead,complain,Prog.call_bind,Prog.done_bind,Prog.pure_eq]
  apply read_transfer
  · intro answer short
    cases answer with
    | none => exact fun _ _ => ⟨by simp [aside],rfl,rfl⟩
    | some bytes =>
      dsimp only
      rw [if_pos (short bytes rfl)]
      exact fun _ _ => ⟨by simp [aside],rfl,rfl⟩
  · intro bytes whole
    dsimp only
    rw [if_neg (not_not.mpr whole)]
    refine fun _ _ => ⟨by simp [aside],fun _ => ?_,rfl⟩
    simpa [output,valueLine] using valueLine_isLine size (leToHost b (decode b.order bytes.val))

theorem pciDoWrite_transfer (b : Build) (fd : Int) (size : Nat) (hostToLe : Build → Nat → Nat) (ldata : Nat) :
    (pciDoWrite b fd size hostToLe ldata).All (TransferStage size false) := by
  simp only [pciDoWrite,complain,Prog.call_bind,Prog.done_bind,Prog.pure_eq]
  apply write_transfer size
  · intro written short
    rw [if_pos short]
    exact fun _ _ => ⟨by simp [aside],rfl,rfl⟩
  · rw [if_neg (not_not.mpr rfl)]
    exact fun _ => ⟨by simp [aside],by simp,rfl⟩

abbrev Reports (size : Nat) (reads : Bool) (program : Action Int) : Prop :=
  program.All (fun trace outcome => (∀ e ∈ trace, seekLaw e) → Honest size reads trace outcome)

theorem minus_one (position : Int) (_ : -1 ≤ position) : (position = -1) ↔ position = -1 := Iff.rfl

theorem negative (position : Int) (bound : -1 ≤ position) : position < 0 ↔ position = -1 := by omega

theorem rdMsr_reports (b : Build) (name cpu msr : Arg) (info : CmdInfo) : Reports 8 true (rdMsr b [name,cpu,msr] info) :=
  honest_stages (openAndSeek_opening _ _ _ (· = -1) minus_one _ _ 8) rfl (readQuad_transfer b)

theorem wrMsr_reports (b : Build) (name cpu msr data : Arg) (info : CmdInfo) :
    Reports 8 false (wrMsr b [name,cpu,msr,data] info) :=
  honest_stages (openAndSeek_opening _ _ _ (· = -1) minus_one _ _ 8) rfl (fun fd => writeQuad_transfer b fd _)

theorem rdScom_reports (b : Build) (name chip scom : Arg) (info : CmdInfo) : Reports 8 true (rdScom b [name,chip,scom] info) :=
  honest_stages (openAndSeek_opening _ _ _ (· = -1) minus_one _ _ 8) rfl (readQuad_transfer b)

theorem wrScom_reports (b : Build) (name chip scom data : Arg) (info : CmdInfo) :
    Reports 8 false (wrScom b [name,chip,scom,data] info) :=
  honest_stages (openAndSeek_opening _ _ _ (· = -1) minus_one _ _ 8) rfl (fun fd => writeQuad_transfer b fd _)

theorem stopped_reports (message : Message) : Reports size reads (.call (.stderr message) fun _ => .done (-1)) := by
  intro _ _
  apply honest_stopped
  simp [OpeningStage,Positioned,calm,output,isWrite,movesAll,seeksFile]

theorem cmosRd_reports (b : Build) (name index : Arg) (info : CmdInfo) : Reports 1 true (cmosRd b [name,index] info) := by
  show Reports 1 true (if (strtoulLong b 0 index.text).1 < nvramOffset then _ else _)
  split
  · exact stopped_reports _
  · apply honest_stages (openAndSeek_opening _ _ _ (· < 0) negative _ _ 1) rfl
    intro fd
    simp only [complain,Prog.call_bind,Prog.done_bind,Prog.pure_eq]
    apply read_transfer
    · intro answer short
      cases answer with
      | none => exact fun _ _ _ => ⟨by simp [aside],rfl,rfl⟩
      | some bytes =>
        dsimp only
        rw [if_pos (short bytes rfl)]
        exact fun _ _ _ => ⟨by simp [aside],rfl,rfl⟩
    · intro bytes whole
      dsimp only
      rw [if_neg (not_not.mpr whole)]
      refine fun _ _ => ⟨by simp [aside],fun _ => ?_,rfl⟩
      simpa [output,valueLine] using valueLine_isLine 1 (decode b.order bytes.val)

theorem cmosWr_reports (b : Build) (name index data : Arg) (info : CmdInfo) :
    Reports 1 false (cmosWr b [name,index,data] info) := by
  show Reports 1 false (if (strtoulLong b 0 index.text).1 < nvramOffset then _ else _)
  split
  · exact stopped_reports _
  · apply honest_stages (openAndSeek_opening _ _ _ (· < 0) negative _ _ 1) rfl
    intro fd
    simp only [complain,Prog.call_bind,Prog.done_bind,Prog.pure_eq]
    apply write_transfer 1
    · intro written short
      rw [if_pos (show written ≠ 1 from short)]
      exact fun _ _ _ => ⟨by simp [aside],rfl,rfl⟩
    · exact fun _ => ⟨by simp [aside],by simp,rfl⟩

theorem pciReadX_reports (b : Build) (sized : info.sizedata = some 8 ∨ info.sizedata = some 16 ∨ info.sizedata = some 32)
    (located : pciAddress b argv (5 < argv.length) = .done address) : Reports info.bytes true (pciReadX b argv info) := by
  obtain ⟨leToHost,_,run⟩ := pciReadX_sized b sized located
  rw [run,← pciOpenAndSeek_bind address .rdonly (fun fd => pciDoRead b fd info.bytes leToHost)]
  exact honest_stages (pciOpenAndSeek_opening address .rdonly info.bytes) rfl (fun fd => pciDoRead_transfer b fd _ _)

theorem pciWriteX_reports (b : Build) (sized : info.sizedata = some 8 ∨ info.sizedata = some 16 ∨ info.sizedata = some 32)
    (located : pciAddress b argv (6 < argv.length) = .done address)
    (given : argv[if 6 < argv.length then 6 else 5]? = some data) : Reports info.bytes false (pciWriteX b argv info) := by
  obtain ⟨hostToLe,_,run⟩ := pciWriteX_sized b sized located given
  rw [run,← pciOpenAndSeek_bind address .wronly
    (fun fd => pciDoWrite b fd info.bytes hostToLe (strtoulLong b 0 data.text).1)]
  exact honest_stages (pciOpenAndSeek_opening address .wronly info.bytes) rfl (fun fd => pciDoWrite_transfer b fd _ _ _)

def CmdInfo.registerBytes (info : CmdInfo) : Option Nat :=
  match info.entry with
  | .rdMsr | .wrMsr | .rdScom | .wrScom => some 8
  | .cmosRd | .cmosWr => some 1
  | .pciReadX | .pciWriteX => some info.bytes
  | _ => none

def CmdInfo.registerReads (info : CmdInfo) : Bool :=
  match info.entry with
  | .rdMsr | .rdScom | .cmosRd | .pciReadX => true
  | _ => false

theorem everyCmd_registers : ∀ info ∈ everyCmd, info.registerBytes.isSome = true →
    (∀ p ∈ info.params, p.ioplNeeded = 0) ∧
    (info.entry = .pciReadX → info ∈ pciCmds) ∧ (info.entry = .pciWriteX → info ∈ pciCmds) ∧
    (info.entry = .rdMsr ∨ info.entry = .rdScom → ∃ p ∈ info.params, p.minArgs = 3 ∧ p.maxArgs = 3) ∧
    (info.entry = .wrMsr ∨ info.entry = .wrScom → ∃ p ∈ info.params, p.minArgs = 4 ∧ p.maxArgs = 4) ∧
    (info.entry = .cmosRd → ∃ p ∈ info.params, p.minArgs = 2 ∧ p.maxArgs = 2) ∧
    (info.entry = .cmosWr → ∃ p ∈ info.params, p.minArgs = 3 ∧ p.maxArgs = 3) := by
  decide

theorem pciRead_located (b : Build) (admitted : Admits (some pciRdParams) argv) :
    ∃ address, pciAddress b argv (5 < argv.length) = .done address := by
  have count : 5 ≤ argv.length ∧ argv.length ≤ 6 := admitted pciRdParams rfl
  match argv,count with
  | [_,_,_,_,_],_ => exact ⟨_,rfl⟩
  | [_,_,_,_,_,_],_ => exact ⟨_,rfl⟩

theorem pciWrite_located (b : Build) (admitted : Admits (some pciWrParams) argv) :
    ∃ address data, pciAddress b argv (6 < argv.length) = .done address ∧
      argv[if 6 < argv.length then 6 else 5]? = some data := by
  have count : 6 ≤ argv.length ∧ argv.length ≤ 7 := admitted pciWrParams rfl
  match argv,count with
  | [_,_,_,_,_,_],_ => exact ⟨_,_,rfl,rfl⟩
  | [_,_,_,_,_,_,_],_ => exact ⟨_,_,rfl,rfl⟩

theorem register_reports (b : Build) (fuel : Nat) (member : info ∈ registered b) (sized : info.registerBytes = some size)
    (admitted : Admits info.params argv) : Reports size info.registerReads (runInfo b fuel argv info) := by
  obtain ⟨noIopl,readsPci,writesPci,three,four,index,value⟩ :=
    everyCmd_registers info (mem_everyCmd member) (by rw [sized]; rfl)
  have counted {n : Nat} (fixed : ∃ p ∈ info.params, p.minArgs = n ∧ p.maxArgs = n) : argv.length = n := by
    obtain ⟨p,found,least,most⟩ := fixed
    have count := admitted p found
    omega
  rw [runInfo_admitted b fuel noIopl admitted]
  unfold CmdInfo.registerBytes at sized
  unfold CmdInfo.registerReads
  cases entry : info.entry with
  | rdMsr =>
    rw [entry] at sized
    cases sized
    obtain ⟨name,cpu,msr,rfl⟩ := List.length_eq_three.mp (counted (three (.inl entry)))
    exact rdMsr_reports b name cpu msr info
  | rdScom =>
    rw [entry] at sized
    cases sized
    obtain ⟨name,chip,scom,rfl⟩ := List.length_eq_three.mp (counted (three (.inr entry)))
    exact rdScom_reports b name chip scom info
  | wrMsr =>
    rw [entry] at sized
    cases sized
    match argv,counted (four (.inl entry)) with
    | [name,cpu,msr,data],_ => exact wrMsr_reports b name cpu msr data info
  | wrScom =>
    rw [entry] at sized
    cases sized
    match argv,counted (four (.inr entry)) with
    | [name,chip,scom,data],_ => exact wrScom_reports b name chip scom data info
  | cmosRd =>
    rw [entry] at sized
    cases sized
    obtain ⟨name,at_,rfl⟩ := List.length_eq_two.mp (counted (index entry))
    exact cmosRd_reports b name at_ info
  | cmosWr =>
    rw [entry] at sized
    cases sized
    obtain ⟨name,at_,data,rfl⟩ := List.length_eq_three.mp (counted (value entry))
    exact cmosWr_reports b name at_ data info
  | pciReadX =>
    rw [entry] at sized
    cases sized
    obtain ⟨params,_,widths⟩ := pciCmds_sized info (readsPci entry)
    rw [params entry] at admitted
    obtain ⟨address,located⟩ := pciRead_located b admitted
    exact pciReadX_reports b (widths (.inl entry)) located
  | pciWriteX =>
    rw [entry] at sized
    cases sized
    obtain ⟨_,params,widths⟩ := pciCmds_sized info (writesPci entry)
    rw [params entry] at admitted
    obtain ⟨address,data,located,given⟩ := pciWrite_located b admitted
    exact pciWriteX_reports b (widths (.inr entry)) located given
  | _ =>
    rw [entry] at sized
    cases sized

-- Every command on a register file reports what happened, in every environment
-- whose lseek answers -1 or an offset.
theorem register_files_honest (b : Build) (fuel : Nat) (info : CmdInfo) (member : info ∈ registered b)
    (sized : info.registerBytes = some size) (argv : List Arg) (admitted : Admits info.params argv)
    (kernel : Kernel Sys σ) (lawful : ∀ fd offset s, (-1 : Int) ≤ (kernel (.lseek fd offset) s).1) (s : σ) :
    Honest size info.registerReads ((runInfo b fuel argv info).exec kernel s).trace
      ((runInfo b fuel argv info).exec kernel s).outcome := by
  apply (register_reports b fuel member sized admitted).exec kernel s
  apply Prog.exec_events
  intro c state
  cases c with
  | lseek fd offset => exact lawful fd offset state
  | _ => trivial

-- A sysfs open that fails and a procfs open that works, then one byte too few:
-- nothing printed, -1 returned.
def shortPci : Kernel Sys Nat := fun c s =>
  match c with
  | .open .. => if s = 0 then ((-1 : Int),1) else ((3 : Int),s)
  | .lseek _ offset => (if offset < 0 then (-1 : Int) else offset,s)
  | .read _ count => (some ⟨List.replicate (count - 1) 0,by simp⟩,s)
  | c => (c.succeeds,s)

theorem register_files_honest_short :
    let info := makeCmdWithParamsSize "pci_read16" .pciReadX .null pciRdParams 16
    let run := (runInfo .ppc64 0 (["pci_read16","0","0x1f","3","0"].map Arg.of) info).exec shortPci 0
    Positioned run.trace ∧ run.trace.any (movesAll 2) = false ∧ run.outcome = .ok (-1) ∧
    Honest 2 true run.trace run.outcome := by
  refine ⟨⟨by decide +kernel,by decide +kernel⟩,by decide +kernel,by decide +kernel,?_⟩
  refine register_files_honest .ppc64 0 (makeCmdWithParamsSize "pci_read16" .pciReadX .null pciRdParams 16) (by decide) rfl
    (["pci_read16","0","0x1f","3","0"].map Arg.of) (by decide) shortPci ?_ 0
  intro fd offset s
  show (-1 : Int) ≤ if offset < 0 then -1 else offset
  split
  · exact le_refl _
  · omega

end Iotools
