import Iotools.ChipId
import Iotools.MemorySessions
import Iotools.PciProcfs

namespace Iotools
open Bytes Numeral Interaction

-- The command behind its PIR: the four bits that number the core on its chip.
def exText (pir : Nat) : Text := decimal ((pir / 8) % 16 : Nat) ++ "\n".toList

def exLine (pir : Option Nat) : Action Int := pir.elim (.done (-1)) fun pir => .call (.stdout (exText pir)) fun _ => .done 0

theorem cpuToEx_given (b : Build) (name cpu : Arg) (info : CmdInfo) :
    cpuToEx b [name,cpu] info = cpuToPir b (cpuNumber b cpu) >>= exLine := by
  have at_one : argAt [name,cpu] 1 = .done cpu.text := rfl
  unfold cpuToEx
  rw [at_one,Prog.done_bind]
  change cpuToPir b (cpuNumber b cpu) >>= _ = _
  congr 1
  funext pir
  cases pir <;> rfl

theorem scom_cpuParams : ∀ info ∈ everyCmd, info.entry = .cpuToChipid ∨ info.entry = .cpuToEx → info.params = some scomCpuParams := by
  decide +kernel

theorem cpu_call (b : Build) (fuel : Nat) (member : info ∈ everyCmd) (entry : info.entry = .cpuToChipid ∨ info.entry = .cpuToEx)
    (name cpu : Arg) : runInfo b fuel [name,cpu] info = info.entry.call b fuel [name,cpu] info := by
  have params := scom_cpuParams info member entry
  exact runInfo_admitted b fuel (by simp [params,scomCpuParams,fixedArgs]) (by simp [Admits,params,scomCpuParams,fixedArgs])

section Run
variable (b : Build) (name cpu : Arg) (info : CmdInfo) (stack : (size : Nat) → Buffer size) (kernel : Kernel Sys σ)

theorem ex_starts (s : σ) :
    (cpuToEx b [name,cpu] info).exec (onStack stack kernel) s =
      ((fetch (pirFile (cpuNumber b cpu)) 64 (fun bytes => report (parsePir b ((stack 64).patch 0 bytes.val))) >>=
        exLine).exec (onStack stack kernel) s).prepend ([⟨.stale 64,stack 64⟩] : Trace Sys) := by
  have stale : onStack stack kernel (.stale 64) s = (stack 64,s) := rfl
  rw [cpuToEx_given,cpuToPir_fetch,Prog.call_bind,Prog.exec_step stale]

theorem ex_no_pir {s : σ} (missing : fileRead kernel (pirFile (cpuNumber b cpu)) 64 s = none) :
    Fails ((cpuToEx b [name,cpu] info).exec (onStack stack kernel) s) := by
  have nothing := fetch_nothing stack kernel missing (fun bytes => report (parsePir b ((stack 64).patch 0 bytes.val)))
  rw [ex_starts]
  exact (nothing.fails rfl).prepend rfl

def exEvents (stack : (size : Nat) → Buffer size) (cpu fd : Int) (text : {bytes : List UInt8 // bytes.length ≤ 64}) : Trace Sys :=
  [⟨.stale 64,stack 64⟩,⟨.open (pirFile cpu) ⟨.rdonly,false⟩,fd⟩,⟨.read fd 64,some text⟩,⟨.close fd,()⟩]

theorem ex_pir {s : σ} (found : fileRead kernel (pirFile (cpuNumber b cpu)) 64 s = some (fd,text,s')) :
    (cpuToEx b [name,cpu] info).exec (onStack stack kernel) s =
      ((report (parsePir b ((stack 64).patch 0 text.val)) >>= exLine).exec (onStack stack kernel) s').prepend
        (exEvents stack (cpuNumber b cpu) fd text) := by
  have reads := fetch_reads stack kernel found (fun bytes => report (parsePir b ((stack 64).patch 0 bytes.val)))
  rw [ex_starts,Prog.exec_after reads,Run.prepend_prepend]
  rfl

theorem ex_ends {s : σ} (found : fileRead kernel (pirFile (cpuNumber b cpu)) 64 s = some (fd,text,s')) (ends : PirEnds text.val) :
    (cpuToEx b [name,cpu] info).exec (onStack stack kernel) s =
      ⟨exEvents stack (cpuNumber b cpu) fd text ++ [⟨.stdout (exText (pirOf b text.val)),()⟩],.ok 0,
        ((onStack stack kernel) (.stdout (exText (pirOf b text.val))) s').2⟩ := by
  rw [ex_pir b name cpu info stack kernel found,parsePir_ends b (stack 64) text.property ends]
  rfl

theorem ex_runs_on {s : σ} (found : fileRead kernel (pirFile (cpuNumber b cpu)) 64 s = some (fd,text,s'))
    (runs_on : ¬ PirEnds text.val) :
    ((cpuToEx b [name,cpu] info).exec (onStack (fun _ _ => 48) kernel) s).outcome = .error .pastNul := by
  rw [ex_pir b name cpu info _ kernel found,parsePir_runs_on b text.property runs_on]
  rfl

end Run

def ReportsEx (b : Build) (cpu : Int) (run : Run Sys Fault Int σ) : Prop :=
  Fails run ∨
  ∃ (fd : Int) (text : {bytes : List UInt8 // bytes.length ≤ 64}),
    List.Sublist ([⟨.open (pirFile cpu) ⟨.rdonly,false⟩,fd⟩,⟨.read fd 64,some text⟩] : Trace Sys) run.trace ∧
    run.outcome = .ok 0 ∧ printed run.trace = exText (pirOf b text.val)

-- The core number is reported, and the same whatever the stack holds, exactly
-- where the number in the file has an end.
theorem ex_iff (b : Build) (fuel : Nat) (info : CmdInfo) (member : info ∈ everyCmd) (entry : info.entry = .cpuToEx)
    (name cpu : Arg) (kernel : Kernel Sys σ) (s : σ) :
    let run := fun stack => (runInfo b fuel [name,cpu] info).exec (onStack stack kernel) s
    ((∀ stack, ReportsEx b (cpuNumber b cpu) (run stack)) ∧
      ∀ stack stack', printed (run stack).trace = printed (run stack').trace) ↔
    ∀ fd text s', fileRead kernel (pirFile (cpuNumber b cpu)) 64 s = some (fd,text,s') → PirEnds text.val := by
  intro run
  have runs : run = fun stack => (cpuToEx b [name,cpu] info).exec (onStack stack kernel) s := by
    simp only [run]
    rw [cpu_call b fuel member (.inr entry),entry]
    rfl
  rw [runs]
  constructor
  · rintro ⟨reports,_⟩ fd text s' found
    by_contra runs_on
    have stops := ex_runs_on b name cpu info kernel found runs_on
    rcases reports (fun _ _ => 48) with ⟨⟨code,failed,_⟩,_⟩ | ⟨_,_,_,ended,_⟩
    · cases stops.symm.trans failed
    · cases stops.symm.trans ended
  · intro fits
    rcases found : fileRead kernel (pirFile (cpuNumber b cpu)) 64 s with _ | ⟨fd,text,s'⟩
    · have fails (stack : (size : Nat) → Buffer size) := ex_no_pir b name cpu info stack kernel found
      exact ⟨fun stack => .inl (fails stack),fun stack stack' => (fails stack).2.trans (fails stack').2.symm⟩
    · have ended (stack : (size : Nat) → Buffer size) := ex_ends b name cpu info stack kernel found (fits fd text s' found)
      have line (stack : (size : Nat) → Buffer size) :
          printed ((cpuToEx b [name,cpu] info).exec (onStack stack kernel) s).trace = exText (pirOf b text.val) := by
        rw [ended]
        simp [exEvents,output]
      refine ⟨fun stack => .inr ⟨fd,text,?_,?_,line stack⟩,fun stack stack' => (line stack).trans (line stack').symm⟩
      · dsimp only
        rw [ended]
        apply List.Sublist.cons
        apply List.Sublist.cons_cons
        apply List.Sublist.cons_cons
        exact List.nil_sublist _
      · dsimp only
        rw [ended]

def cpuToExInfo : CmdInfo := makeCmdWithParams "cputoex" .cpuToEx .null scomCpuParams

theorem ex_iff_newline :
    let run := fun stack => (runInfo .ppc64 0 (["cputoex","0"].map Arg.of) cpuToExInfo).exec
      (onStack stack (chipFiles [0x32,0x30,0x0a] [])) ()
    (∀ stack, ReportsEx .ppc64 0 (run stack)) ∧ ∀ stack stack', printed (run stack).trace = printed (run stack').trace := by
  have exact_ := ex_iff .ppc64 0 cpuToExInfo (by decide +kernel) rfl (Arg.of "cputoex") (Arg.of "0") (chipFiles [0x32,0x30,0x0a] []) ()
  rw [cpuNumber_zero .ppc64 rfl] at exact_
  refine exact_.mpr ?_
  intro fd text s' found
  rw [chipFiles_pir _ _ (by decide)] at found
  cases found
  exact chipFiles_ends

structure CoreTree where
  files : Text → Option (List UInt8)
  nodes : Text → Option Text

-- One file is open at a time: the state names it.
def CoreTree.kernel (tree : CoreTree) : Kernel Sys (Option Text) := fun c s =>
  match c with
  | .open path _ => if (tree.files path).isSome then ((3 : Int),some path) else ((-1 : Int),s)
  | .read _ size => ((s.bind tree.files).map (fun bytes => ⟨bytes.take size,List.length_take_le _ _⟩),s)
  | .close _ => ((),none)
  | .glob pattern => ((tree.nodes pattern).elim (.error 3) .ok,s)
  | c => (c.succeeds,s)

-- What the machine shows of a cpu: its PIR on a line of its own, and at the node
-- of its core the number of its chip in a big-endian cell.
structure CoreTree.Shows (tree : CoreTree) (cpu : Int) (pir chip : Nat) : Prop where
  pirSmall : pir < 2 ^ 32
  line : ∃ bytes, tree.files (pirFile cpu) = some bytes ∧ bytes.length ≤ 64 ∧ cText bytes = hexLower 0 pir ++ ['\n']
  chipSmall : chip < 2 ^ 32
  node : ∃ path, tree.nodes (nodePattern (pir - pir % 8)) = some path ∧ tree.files path = some (encode .big 4 chip)

theorem CoreTree.fileRead (tree : CoreTree) (found : tree.files path = some bytes) (fits : bytes.length ≤ size) (s : Option Text) :
    Iotools.fileRead tree.kernel path size s = some (3,⟨bytes,fits⟩,none) := by
  have whole : bytes.take size = bytes := List.take_of_length_le fits
  simp [Iotools.fileRead,CoreTree.kernel,found,whole]

section Lines
variable {b : Build} {order : List Group} (perm : order.Perm (groups b)) {fuel : Nat} (enough : order.length ≤ fuel)
  {tree : CoreTree} (stack : (size : Nat) → Buffer size)

def Issued.cpu (c : Issued b) : Int := toInt (strtoulLong b 0 (c.text 1)).1

theorem cpu_vector {c : Issued b} (entry : c.info.entry = .cpuToChipid ∨ c.info.entry = .cpuToEx)
    (admitted : Admits c.info.params c.vector) : ∃ name cpu, c.vector = [name,cpu] ∧ c.cpu = cpuNumber b cpu := by
  have params := scom_cpuParams c.info c.member entry
  obtain ⟨least,most⟩ := admitted _ params
  obtain ⟨name,cpu,vector⟩ := List.length_eq_two.mp (le_antisymm most least)
  exact ⟨name,cpu,vector,by simp [Issued.cpu,Issued.text,vector,cpuNumber]⟩

include perm enough

theorem cpu_run {c : Issued b} (entry : c.info.entry = .cpuToChipid ∨ c.info.entry = .cpuToEx) (vector : c.vector = [name,cpu]) :
    c.run order fuel = c.info.entry.call b fuel [name,cpu] c.info := by
  rw [c.run_eq perm enough,vector,cpu_call b fuel c.member entry]

theorem ex_line {c : Issued b} (entry : c.info.entry = .cpuToEx) (admitted : Admits c.info.params c.vector)
    (shows : tree.Shows c.cpu pir chip) (s : Option Text) :
    let run := (c.run order fuel).exec (onStack stack tree.kernel) s
    run.outcome = .ok 0 ∧ printed run.trace = exText pir := by
  intro run
  obtain ⟨name,cpu,vector,number⟩ := cpu_vector (.inr entry) admitted
  obtain ⟨bytes,file,fits,text⟩ := shows.line
  rw [number] at file
  have ended := ex_ends b name cpu c.info stack tree.kernel (tree.fileRead file fits s) (pirLine_ends pir text)
  have whole : run = (cpuToEx b [name,cpu] c.info).exec (onStack stack tree.kernel) s := by
    change (c.run order fuel).exec _ s = _
    rw [cpu_run perm enough (.inr entry) vector,entry]
    rfl
  rw [whole,ended,pirLine_pirOf b pir shows.pirSmall text]
  exact ⟨rfl,by simp [exEvents,output]⟩

theorem chip_line {c : Issued b} (entry : c.info.entry = .cpuToChipid) (admitted : Admits c.info.params c.vector)
    (shows : tree.Shows c.cpu pir chip) (s : Option Text) :
    let run := (c.run order fuel).exec (onStack stack tree.kernel) s
    run.outcome = .ok 0 ∧ printed run.trace = valueLine 4 (decode b.order (encode .big 4 chip)) := by
  intro run
  obtain ⟨name,cpu,vector,number⟩ := cpu_vector (.inl entry) admitted
  obtain ⟨bytes,file,fits,text⟩ := shows.line
  obtain ⟨path,found,cell⟩ := shows.node
  rw [number] at file
  have four : (encode .big 4 chip).length = 4 := encode_length _ _ _
  have node : tree.kernel (.glob (nodePattern (pirOf b bytes - pirOf b bytes % 8))) none = (.ok path,none) := by
    rw [pirLine_pirOf b pir shows.pirSmall text]
    simp [CoreTree.kernel,found]
  have prints := chipid_prints b name cpu c.info tree.kernel (tree.fileRead file fits s) (pirLine_ends pir text) node
    (tree.fileRead cell (le_of_eq four) none) stack
  obtain ⟨_,ended,line⟩ := prints
  have whole : run = (cpuToChipid b [name,cpu] c.info).exec (onStack stack tree.kernel) s := by
    change (c.run order fuel).exec _ s = _
    rw [cpu_run perm enough (.inl entry) vector,entry]
    rfl
  rw [whole]
  refine ⟨ended,line.trans ?_⟩
  rw [Buffer.ofFn_patch _ _ (le_of_eq four),four,List.drop_of_length_le (by simp),List.append_nil]

end Lines

theorem exText_inj : exText left = exText right ↔ left / 8 % 16 = right / 8 % 16 := by
  constructor
  · intro same
    exact decimal_inj (List.append_cancel_right same)
  · intro same
    unfold exText
    rw [same]

-- A cell read in either order still tells chips apart.
theorem cell_inj (order : Endian) (small : left < 2 ^ 32) (small' : right < 2 ^ 32) :
    decode order (encode .big 4 left) = decode order (encode .big 4 right) ↔ left = right := by
  constructor
  · intro same
    have first := encode_decode order (encode .big 4 left)
    have second := encode_decode order (encode .big 4 right)
    rw [encode_length] at first second
    rw [same,second] at first
    have values := congrArg (decode .big) first
    rw [decode_encode,decode_encode] at values
    omega
  · rintro rfl
    rfl

-- On a machine whose PIRs hold the chip above the four bits of the core and the
-- three of the thread, the two commands agree about two cpus exactly when these
-- are threads of one core.
theorem core_identity (b : Build) (order : List Group) (perm : order.Perm (groups b)) (fuel : Nat) (enough : order.length ≤ fuel)
    (tree : CoreTree) (stack : (size : Nat) → Buffer size) (s : Option Text) (chip ex chip' ex' : Issued b)
    (chips : chip.info.entry = .cpuToChipid ∧ chip'.info.entry = .cpuToChipid)
    (cores : ex.info.entry = .cpuToEx ∧ ex'.info.entry = .cpuToEx)
    (admitted : ∀ c ∈ [chip,ex,chip',ex'], Admits c.info.params c.vector) (same : chip.cpu = ex.cpu) (same' : chip'.cpu = ex'.cpu)
    (pir pir' : Nat) (shows : tree.Shows ex.cpu pir (pir / 128)) (shows' : tree.Shows ex'.cpu pir' (pir' / 128)) :
    let tells := fun c : Issued b => printed ((c.run order fuel).exec (onStack stack tree.kernel) s).trace
    tells chip = tells chip' ∧ tells ex = tells ex' ↔ pir / 8 = pir' / 8 := by
  intro tells
  have first : tells chip = _ := (chip_line perm enough stack chips.1 (admitted chip (by simp)) (by rw [same]; exact shows) s).2
  have second : tells chip' = _ := (chip_line perm enough stack chips.2 (admitted chip' (by simp)) (by rw [same']; exact shows') s).2
  have third : tells ex = _ := (ex_line perm enough stack cores.1 (admitted ex (by simp)) shows s).2
  have fourth : tells ex' = _ := (ex_line perm enough stack cores.2 (admitted ex' (by simp)) shows' s).2
  rw [first,second,third,fourth,valueLine_inj,cell_inj b.order shows.chipSmall shows'.chipSmall,exText_inj]
  omega

def threadsTree : CoreTree where
  files path :=
    if path = pirFile 0 then some [0x32,0x30,0x0a]
    else if path = pirFile 1 then some [0x32,0x31,0x0a]
    else if path = nodePath then some [0,0,0,0]
    else none
  nodes pattern := if pattern = nodePattern 32 then some nodePath else none

theorem threadsTree_shows : threadsTree.Shows 0 32 0 ∧ threadsTree.Shows 1 33 0 := by
  have other : pirFile 1 ≠ pirFile 0 := by decide +kernel
  have apart : nodePath ≠ pirFile 0 ∧ nodePath ≠ pirFile 1 := by decide +kernel
  have node : ∃ path, threadsTree.nodes (nodePattern 32) = some path ∧ threadsTree.files path = some (encode .big 4 0) := by
    refine ⟨nodePath,by simp [threadsTree],?_⟩
    simp only [threadsTree,if_neg apart.1,if_neg apart.2,if_true]
    rfl
  constructor
  · exact ⟨by decide,⟨[0x32,0x30,0x0a],by simp [threadsTree],by decide,chipFiles_text⟩,by decide,node⟩
  · exact ⟨by decide,⟨[0x32,0x31,0x0a],by simp [threadsTree,other],by decide,by decide +kernel⟩,by decide,node⟩

theorem core_identity_threads :
    let tells := fun args : List String => printed ((runCommand .ppc64le (registerAll (groups .ppc64le)) 9 (args.map Arg.of)).exec
      (onStack (fun _ => Buffer.zero) threadsTree.kernel) none).trace
    tells ["iotools","cputochipid","0"] = tells ["iotools","cputochipid","1"] ∧
    tells ["iotools","cputoex","0"] = tells ["iotools","cputoex","1"] := by
  intro tells
  let chip : Issued .ppc64le := ⟨["iotools","cputochipid","0"].map Arg.of,cpuToChipidInfo,
    ["cputochipid","0"].map Arg.of,by decide +kernel⟩
  let chip' : Issued .ppc64le := ⟨["iotools","cputochipid","1"].map Arg.of,cpuToChipidInfo,
    ["cputochipid","1"].map Arg.of,by decide +kernel⟩
  let ex : Issued .ppc64le := ⟨["iotools","cputoex","0"].map Arg.of,cpuToExInfo,["cputoex","0"].map Arg.of,by decide +kernel⟩
  let ex' : Issued .ppc64le := ⟨["iotools","cputoex","1"].map Arg.of,cpuToExInfo,["cputoex","1"].map Arg.of,by decide +kernel⟩
  have zero : ex.cpu = 0 := by decide +kernel
  have one : ex'.cpu = 1 := by decide +kernel
  have admitted : ∀ c ∈ [chip,ex,chip',ex'], Admits c.info.params c.vector := by decide
  exact (core_identity .ppc64le (groups .ppc64le) (.refl _) 9 (by decide) threadsTree (fun _ => Buffer.zero) none chip ex chip' ex'
    ⟨rfl,rfl⟩ ⟨rfl,rfl⟩ admitted (by decide +kernel) (by decide +kernel) 32 33
    (by rw [zero]; exact threadsTree_shows.1) (by rw [one]; exact threadsTree_shows.2)).mpr rfl

end Iotools
